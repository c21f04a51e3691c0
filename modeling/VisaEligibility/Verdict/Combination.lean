import VisaEligibility.Response.Verdict
import VisaEligibility.Rule.Evaluation
import VisaEligibility.Settings
/-!
Combining the verdict of the rules with that of the model. A known conclusion of the model takes
the place of the rules' outcome unless the two conflict; then the case goes to review with the
smaller confidence.
-/
set_option autoImplicit false

namespace VisaEligibility

structure RuleVerdict where
  outcome : Outcome
  confidence : Number
  mandatoryMissing : List String := []
deriving DecidableEq, Repr, Inhabited

def RuleEvaluation.verdict (r : RuleEvaluation) : RuleVerdict :=
  ⟨r.outcome, r.confidence, r.mandatoryMissing⟩

inductive EscalationReason where
  | lowConfidence
  | conflict
  | missingCriticalFacts
  | reviewRecommended
deriving DecidableEq, Repr

namespace EscalationReason

def name : EscalationReason → String
  | lowConfidence => "low_confidence"
  | conflict => "rule_ai_conflict"
  | missingCriticalFacts => "missing_critical_facts"
  | reviewRecommended => "review_recommended"

def all : List EscalationReason :=
  [lowConfidence, conflict, missingCriticalFacts, reviewRecommended]

def ofName? (s : String) : Option EscalationReason := all.find? fun r => r.name == s

def description : EscalationReason → String
  | lowConfidence => "confidence below threshold"
  | conflict => "rule engine and AI outcomes conflict"
  | missingCriticalFacts => "mandatory requirements lack facts"
  | reviewRecommended => "verdict requires review"

def describe (reasons : List EscalationReason) : String :=
  String.intercalate "; " (reasons.map fun r => r.name ++ ": " ++ r.description)

end EscalationReason

structure CombinedVerdict where
  conclusion : Conclusion
  confidence : Number
  conflict : Bool
  aiUsed : Bool
  reasons : List EscalationReason
  escalate : Bool := !reasons.isEmpty
deriving DecidableEq, Repr

namespace CombinedVerdict

def conflicts (rule : Outcome) : Conclusion → Bool
  | .outcome o => rule.conflicts o
  | .reserved _ => false

/-- The conclusion and confidence of the combination, whether it is a conflict and whether the
model contributed. -/
structure Merged where
  conclusion : Conclusion
  confidence : Number
  conflict : Bool
  aiUsed : Bool
deriving DecidableEq, Repr

def mergeKnown (rule : RuleVerdict) (c : Conclusion) (confidence : Option Number) : Merged :=
  let own := confidence.getD rule.confidence
  if conflicts rule.outcome c then
    ⟨.outcome .requiresReview, rule.confidence.least own, true, true⟩
  else ⟨c, own, false, true⟩

def merge (rule : RuleVerdict) (ai : Option AiVerdict) : Merged :=
  match ai with
  | some ⟨some c, confidence⟩ => mergeKnown rule c confidence
  | _ => ⟨.outcome rule.outcome, rule.confidence, false, false⟩

def escalation (m : Merged) (mandatoryMissing : Bool) (t : Thresholds) : List EscalationReason :=
  (if m.confidence.lt t.escalation then [.lowConfidence] else []) ++
  (if m.conflict then [.conflict] else []) ++
  (if mandatoryMissing then [.missingCriticalFacts] else []) ++
  if m.conclusion = .outcome .requiresReview && !m.conflict then [.reviewRecommended] else []

def combine (rule : RuleVerdict) (ai : Option AiVerdict) (t : Thresholds := {}) :
    CombinedVerdict :=
  let m := merge rule ai
  { conclusion := m.conclusion
    confidence := m.confidence
    conflict := m.conflict
    aiUsed := m.aiUsed
    reasons := escalation m (!rule.mandatoryMissing.isEmpty) t }

def toValue (c : CombinedVerdict) : Value :=
  .record [("outcome", c.conclusion.toValue), ("confidence", .number c.confidence),
    ("conflict", .bool c.conflict), ("aiUsed", .bool c.aiUsed), ("escalate", .bool c.escalate),
    ("escalationReasons", .texts (c.reasons.map (·.name)))]

end CombinedVerdict
end VisaEligibility
