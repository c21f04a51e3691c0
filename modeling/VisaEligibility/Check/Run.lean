import VisaEligibility.Check.Lifecycle
import VisaEligibility.Reasoning.Reasoner
import VisaEligibility.Verdict.Summary
/-!
One check: the rules are evaluated, the model is asked, the verdicts are combined and the result is
stored, and then a review is requested or the case marked as evaluated. A missing rule version or a
failed write ends a check; a failed notification is only a warning, if it can be shown as text.
-/
set_option autoImplicit false

namespace VisaEligibility

structure CheckRequest where
  caseId : String
  visaTypeId : String
  evaluationDate : Option Instant := none
  enableAi : Option Bool := none
  jurisdiction : Option String := none
deriving DecidableEq, Repr

inductive AiStatus where
  | disabled
  | unavailable
  | completed
deriving DecidableEq, Repr

def AiStatus.name : AiStatus → String
  | disabled => "disabled"
  | unavailable => "unavailable"
  | completed => "completed"

structure CheckReport where
  result : EligibilityResult
  rule : RuleEvaluation
  combined : CombinedVerdict
  aiStatus : AiStatus
  aiFailure : Option AiStage
  log : Option ReasoningLog
  citations : List Citation
  warnings : List String
  states : List CheckState
deriving Repr

namespace CheckReport

def toValue (r : CheckReport) : Value :=
  .record [("result", .record r.result.toFields), ("ruleEvaluation", r.rule.toValue),
    ("combined", r.combined.toValue), ("aiStatus", .text r.aiStatus.name),
    ("aiFailure", Value.ofOption (fun s => .text s.name) r.aiFailure),
    ("reasoningLog", Value.ofOption
      (fun l => .record (l.toFields ++ [("prompt", .text l.prompt)])) r.log),
    ("citations", .list (r.citations.map fun c => .record c.toFields)),
    ("warnings", .texts r.warnings), ("states", .texts (r.states.map (·.name)))]

end CheckReport

namespace Check

abbrev Step (α : Type) := Attempt Call.interface Raised α

def lift {α : Type} (e : Engine α) : Step α := ExceptT.lift e

def ofExcept {α : Type} (r : Except Failure α) : Step α :=
  ExceptT.mk (return r.mapError .failure)

/-- What the model contributed, `none` when it was not asked. -/
structure AiPart where
  status : AiStatus
  failure : Option AiStage
  completed : Option Assessment
  warnings : List String

namespace AiPart

def skipped : AiPart := ⟨.disabled, none, none, []⟩

def ofReasoning : Reasoning → AiPart
  | .completed c => ⟨.completed, none, some c, c.warnings⟩
  | .unavailable stage error =>
    ⟨.unavailable, some stage, none, ["AI reasoning unavailable: " ++ error]⟩

def state (p : AiPart) : CheckState :=
  match p.status with
  | .completed => .aiEvaluated
  | _ => .aiSkipped

def verdict (p : AiPart) : Option AiVerdict := p.completed.map (·.verdict)

def answer (p : AiPart) : Option Summary.Answer :=
  p.completed.map fun c => ⟨c.verdict.conclusion, c.answer.text⟩

end AiPart

/-- Whether the model is asked: it has to be there, and neither switched off nor declined. -/
def asksModel (s : EngineSettings) (r : CheckRequest) : Bool :=
  s.aiReasoningEnabled && r.enableAi != some false

def reasoningInput (r : CheckRequest) (facts : Facts) (rule : RuleEvaluation) : AssessmentInput :=
  ⟨facts, rule, rule.visaCode, r.jurisdiction⟩

def askModel (s : EngineSettings) (r : CheckRequest) (facts : Facts) (rule : RuleEvaluation) :
    Step AiPart :=
  if asksModel s r then ExceptT.mk do
    match ← (Reasoning.run s.retrieval s.reasoning (reasoningInput r facts rule)).run with
    | .ok x => return .ok (.ofReasoning x)
    | .error f => return .error (.failure f)
  else return .skipped

def persist (entity : String) (write : Engine (Except Raised Unit)) : Step Unit := ExceptT.mk do
  match ← write with
  | .ok () => return .ok ()
  | .error e => return .error (.failure (.persistence entity e))

/-- A notification; its failure is a warning, unless it cannot be shown as text. -/
def notify (action : String) (send : Engine (Except Raised Unit)) : Step (List String) :=
  ExceptT.mk do
    match ← send with
    | .ok () => return .ok []
    | .error e =>
      match e.text with
      | .ok text => return .ok [action ++ " failed: " ++ text]
      | .error f => return .error (.failure f)

def storeReasoning (caseId : String) (c : Assessment) :
    Step (ReasoningLog × List Citation) := do
  let id ← lift Engine.newId
  let createdAt ← lift Engine.now
  let log : ReasoningLog :=
    { id, caseId, prompt := c.prompt.text, responseText := c.answer.text,
      modelName := c.answer.model, usage := c.answer.usage, createdAt }
  persist "reasoning log" (Engine.saveLog log)
  let citations := c.excerpts.map (Citation.mk id)
  if !citations.isEmpty then persist "citations" (Engine.saveCitations citations)
  return (log, citations)

def storeAnswer (caseId : String) (p : AiPart) : Step (Option ReasoningLog × List Citation) :=
  match p.completed with
  | some c => do
    let (log, citations) ← storeReasoning caseId c
    return (some log, citations)
  | none => return (none, [])

def summary (s : EngineSettings) (rule : RuleEvaluation) (c : CombinedVerdict) (p : AiPart) :
    Text.Units :=
  Summary.ofVerdict rule.findings c p.answer p.failure s.thresholds

def makeResult (r : CheckRequest) (rule : RuleEvaluation) (c : CombinedVerdict)
    (text : Text.Units) (p : AiPart) (log : Option ReasoningLog) (id : String)
    (createdAt : Instant) : EligibilityResult :=
  { id
    caseId := r.caseId
    visaTypeId := r.visaTypeId
    ruleVersionId := rule.ruleVersionId
    conclusion := c.conclusion
    confidence := c.confidence
    summary := text
    missingFacts := rule.missingFacts
    reasoningLogId := log.map (·.id)
    aiUnavailable := p.status = .unavailable
    conflictDetected := c.conflict
    escalated := c.escalate
    createdAt }

/-- Requests a review of an escalated case, or marks the case as evaluated. -/
def announce (caseId : String) (c : CombinedVerdict) : Step (List String) := do
  if c.escalate then
    let warnings ← notify "human review request"
      (Engine.requestReview caseId (EscalationReason.describe c.reasons))
    lift (c.reasons.forM fun r => Engine.count (.escalation r.name))
    return warnings
  else notify "case status update" (Engine.markEvaluated caseId)

def evaluationDate (r : CheckRequest) : Engine Instant :=
  match r.evaluationDate with
  | some d => return d
  | none => Engine.now

def steps (s : EngineSettings) (r : CheckRequest) (facts : Facts) (asOf : Instant) :
    Step CheckReport := do
  let version ← ExceptT.mk (Engine.ruleVersion r.visaTypeId asOf)
  let rule := version.evaluate facts s.thresholds
  let l ← ofExcept (Lifecycle.start.advance .ruleEvaluated)
  let ai ← askModel s r facts rule
  let l ← ofExcept (l.advance ai.state)
  let combined := CombinedVerdict.combine rule.verdict ai.verdict s.thresholds
  let text := summary s rule combined ai
  let l ← ofExcept (l.advance .combined)
  let (log, citations) ← storeAnswer r.caseId ai
  let id ← lift Engine.newId
  let createdAt ← lift Engine.now
  let result := makeResult r rule combined text ai log id createdAt
  persist "eligibility result" (Engine.saveResult result)
  let l ← ofExcept (l.advance .persisted)
  let warnings ← announce r.caseId combined
  let l ← ofExcept (l.advance (if combined.escalate then .escalated else .done))
  lift (Engine.count (.check result.conclusion.display "success"))
  return { result, rule, combined, aiStatus := ai.status, aiFailure := ai.failure, log, citations,
           warnings := rule.warnings ++ ai.warnings ++ warnings, states := l.history }

/-- A check over the facts of its case; a failed one is counted and reported. -/
def overFacts (s : EngineSettings) (r : CheckRequest) (facts : Facts) :
    Engine (Except Raised CheckReport) := do
  let asOf ← evaluationDate r
  match ← (steps s r facts asOf).run with
  | .ok report => return .ok report
  | .error e =>
    Engine.count (.check "none" "failed")
    return .error e.reported

def run (s : EngineSettings) (r : CheckRequest) : Engine (Except Raised CheckReport) := do
  match ← Engine.facts r.caseId with
  | .ok facts => overFacts s r facts
  | .error e => return .error e

end Check
end VisaEligibility
