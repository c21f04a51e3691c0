import VisaEligibility.Retrieval.Chunk
import VisaEligibility.Rule.Evaluation
/-!
The prompt of an assessment: instructions, and the case with its facts in the order of their
names, the result of the rules and the context in ranked order.
-/
set_option autoImplicit false

namespace VisaEligibility

inductive Role where
  | system
  | user
  | assistant
deriving DecidableEq, Repr

namespace Role

def name : Role → String
  | system => "system"
  | user => "user"
  | assistant => "assistant"

def ofName? (s : String) : Option Role := [system, user, assistant].find? fun r => r.name == s

def title : Role → String
  | system => "SYSTEM"
  | user => "USER"
  | assistant => "ASSISTANT"

end Role

structure Message where
  role : Role
  content : String
deriving DecidableEq, Repr

def Message.toValue (m : Message) : Value :=
  .record [("role", .text m.role.name), ("content", .text m.content)]

def Message.ofValue (v : Value) : Message :=
  ⟨(Role.ofName? (v.textAt "role")).getD .user, v.textAt "content"⟩

structure Prompt where
  messages : List Message
deriving DecidableEq, Repr

namespace Prompt

def text (p : Prompt) : String :=
  String.intercalate "\n\n" (p.messages.map fun m => m.role.title ++ ":\n" ++ m.content)

theorem text_pair (system user : String) : text ⟨[⟨.system, system⟩, ⟨.user, user⟩]⟩ =
    "SYSTEM:\n" ++ system ++ "\n\nUSER:\n" ++ user := by
  have titled : "\n\nUSER:\n" = "\n\n" ++ "USER" ++ ":\n" := by decide
  rw [titled]
  simp only [text, List.map_cons, List.map_nil, String.intercalate_cons_cons,
    String.intercalate_singleton, Role.title, String.append_assoc]
  rfl

def toValue (p : Prompt) : Value :=
  .record [("messages", .list (p.messages.map (·.toValue))), ("text", .text p.text)]

def lines (ls : List String) : String := String.intercalate "\n" ls

def noContextNotice : String := "No relevant regulatory context was found."

def instructions : String :=
  lines
    ["You are an immigration eligibility analyst. Assess whether the case meets the requirements " ++
      "of the visa type, using only the case facts, the rule evaluation and the regulatory " ++
      "context provided.",
    "Cite the context you rely on with [1], [2], etc. at the end of the relevant sentences. " ++
      "Do not cite anything else.",
    "If the information is insufficient, say so and choose requires_review.",
    "",
    "End your answer with exactly these two lines:",
    "OUTCOME: eligible | not_eligible | requires_review",
    "CONFIDENCE: a number between 0 and 1"]

def factLine (facts : Facts) (name : String) : Except Failure String := do
  let text ← match facts.get? name with
    | some v => v.factText
    | none => .ok ""
  return "- " ++ name ++ ": " ++ text

def factLines (facts : Facts) : Except Failure (List String) :=
  if facts.entries.isEmpty then .ok ["- (no facts recorded)"]
  else facts.sortedNames.mapM (factLine facts)

def requirementLine (e : RequirementEvaluation) : String :=
  "  - " ++ e.code ++ " (" ++ (if e.mandatory then "mandatory" else "optional") ++ "): " ++
    e.status.name

def ruleLines (r : RuleFindings) : List String :=
  ["- Outcome: " ++ r.outcome.name,
    "- Confidence: " ++ r.confidence.percent,
    "- Requirements passed: " ++ r.passed.text ++ " of " ++ r.total.text ++ " evaluable"] ++
  (if r.missingFacts.isEmpty then []
    else ["- Missing facts: " ++ String.intercalate ", " r.missingFacts]) ++
  if r.evaluations.isEmpty then []
    else "- Requirement results:" :: r.evaluations.map requirementLine

def chunkText (place : Nat) (c : Chunk) : String :=
  "[" ++ toString place ++ "] Document " ++ c.documentVersionId ++ " (similarity " ++
    c.similarity.hundredths ++ ")\n" ++ c.text

def chunkTexts (place : Nat) : List Chunk → List String
  | [] => []
  | c :: cs => chunkText place c :: chunkTexts (place + 1) cs

def context (chunks : List Chunk) : String :=
  if chunks.isEmpty then noContextNotice
  else String.intercalate "\n\n---\n\n" (chunkTexts 1 chunks)

def request : String :=
  "Assess whether the case is eligible for this visa type. Explain which requirements are met " ++
    "and which are not, citing the context with [1], [2], etc. where relevant."

/-- The prompt of a case. An invalid instant among the facts has no text and is refused. -/
def ofCase (chunks : List Chunk) (rule : RuleFindings) (facts : Facts) (visaCode : String) :
    Except Failure Prompt := do
  let facts ← factLines facts
  let sections :=
    ["Visa type: " ++ visaCode, "", "Case facts:"] ++ facts ++ ["", "Rule evaluation:"] ++
      ruleLines rule ++ ["", "Regulatory context:", context chunks, "", request]
  return ⟨[⟨.system, instructions⟩, ⟨.user, lines sections⟩]⟩

end Prompt
end VisaEligibility
