import VisaEligibility.Retrieval.Retriever
import VisaEligibility.Verdict.Combination
/-!
Asking the model for a verdict: context is retrieved, the model is prompted and its answer read. A
failure of one of the stages makes the verdict unavailable and goes no further.
-/
set_option autoImplicit false

namespace VisaEligibility

structure AssessmentInput where
  facts : Facts
  rule : RuleEvaluation
  visaCode : String
  jurisdiction : Option String
deriving Repr

structure Assessment where
  verdict : AiVerdict
  capped : Bool
  prompt : Prompt
  answer : ModelAnswer
  chunks : List Chunk
  excerpts : List Excerpt
  warnings : List String
deriving Repr

inductive Reasoning where
  | completed (c : Assessment)
  | unavailable (stage : AiStage) (error : String)
deriving Repr

def Failure.stage? (f : Failure) : Option AiStage :=
  [AiStage.embedding, .retrieval, .model].find? fun s => s.kind = f.kind

namespace Reasoning

open Retrieval (Attempted policyOf remote)

def providerName : String := "mock"

def activity : String := "Model completion"

/-- Calls the model under a policy and counts the call. -/
def consultUnder (policy : CallPolicy) (s : ReasoningSettings) (p : Prompt) :
    Attempted ModelAnswer := ExceptT.mk do
  match ← remote policy (Engine.completion p.messages ⟨s.temperature, s.maxTokens⟩) with
  | .ok a =>
    Engine.count (.modelCall providerName a.model "success")
    return .ok a
  | .error e =>
    Engine.count (.modelCall providerName "unknown" "error")
    return .error (.ofActivity .model activity e)

def consult (s : ReasoningSettings) (p : Prompt) : Attempted ModelAnswer := do
  consultUnder (← policyOf "model" s.model) s p

def exceedsCap (cap : Number) (chunks : List Chunk) (confidence : Option Number) : Bool :=
  chunks.isEmpty && (confidence.map cap.lt).getD false

def capWarning (cap : Number) : String :=
  "AI confidence capped at " ++ cap.text ++ " because no regulatory context was found"

/-- Reads a model answer; without context its confidence is capped. -/
def ofAnswer (cap : Number) (chunks : List Chunk) (p : Prompt) (a : ModelAnswer) :
    Assessment :=
  let v := Response.verdict a.text
  let capped := exceedsCap cap chunks v.confidence
  { verdict := if capped then { v with confidence := some cap } else v
    capped
    prompt := p
    answer := a
    chunks
    excerpts := Response.excerpts a.text chunks
    warnings := v.warnings.map (·.message) ++ if capped then [capWarning cap] else [] }

def complete (retrieval : RetrievalSettings) (s : ReasoningSettings) (i : AssessmentInput) :
    Attempted Assessment := do
  let context ← Retrieval.retrieve retrieval i.facts ⟨some i.visaCode, i.jurisdiction⟩
  let p ← ExceptT.mk (return Prompt.ofCase context.chunks i.rule.findings i.facts i.visaCode)
  let a ← consult s p
  return ofAnswer s.noContextConfidenceCap context.chunks p a

/-- The verdict of the model, or the stage that made it unavailable. -/
def run (retrieval : RetrievalSettings) (s : ReasoningSettings) (i : AssessmentInput) :
    Attempted Reasoning := ExceptT.mk do
  match ← (complete retrieval s i).run with
  | .ok c =>
    Engine.count (.reasoning "completed" "none")
    return .ok (completed c)
  | .error f =>
    match f.stage? with
    | some stage =>
      Engine.count (.reasoning "unavailable" stage.name)
      return .ok (unavailable stage f.message)
    | none => return .error f

def answerValue (a : ModelAnswer) : Value :=
  .record [("responseText", .text a.text), ("modelName", .text a.model),
    ("tokenUsage", Value.ofOption TokenUsage.toValue a.usage)]

def toValue : Reasoning → Value
  | completed c =>
    .record [("status", .text "completed"), ("outcome", c.verdict.conclusionValue),
      ("confidence", c.verdict.confidenceValue), ("confidenceCapped", .bool c.capped),
      ("prompt", c.prompt.toValue), ("response", answerValue c.answer),
      ("contextChunks", .list (c.chunks.map (·.toValue))),
      ("citations", .list (c.excerpts.map fun e => .record e.toFields)),
      ("warnings", .texts c.warnings)]
  | unavailable stage error =>
    .record [("status", .text "unavailable"), ("failure", .text stage.name),
      ("error", .text error)]

end Reasoning
end VisaEligibility
