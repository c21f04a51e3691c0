import VisaEligibility.Failure.Basic
/-!
The states of a check. After the rules are evaluated the model is asked or skipped; the combined
verdict is stored before anyone is notified.
-/
set_option autoImplicit false

namespace VisaEligibility

inductive CheckState where
  | pending
  | ruleEvaluated
  | aiEvaluated
  | aiSkipped
  | combined
  | persisted
  | escalated
  | done
deriving DecidableEq, Repr

namespace CheckState

def name : CheckState → String
  | pending => "PENDING"
  | ruleEvaluated => "RULE_EVALUATED"
  | aiEvaluated => "AI_EVALUATED"
  | aiSkipped => "AI_SKIPPED"
  | combined => "COMBINED"
  | persisted => "PERSISTED"
  | escalated => "ESCALATED"
  | done => "DONE"

def successors : CheckState → List CheckState
  | pending => [ruleEvaluated]
  | ruleEvaluated => [aiEvaluated, aiSkipped]
  | aiEvaluated => [combined]
  | aiSkipped => [combined]
  | combined => [persisted]
  | persisted => [escalated, done]
  | escalated => []
  | done => []

end CheckState

/-- The states a check has been in, the current one last. -/
structure Lifecycle where
  past : List CheckState
  current : CheckState
deriving DecidableEq, Repr

namespace Lifecycle

def start : Lifecycle := ⟨[], .pending⟩

def illegal (a b : CheckState) : Failure :=
  .general ("Illegal eligibility check transition " ++ a.name ++ " -> " ++ b.name)

def advance (l : Lifecycle) (s : CheckState) : Except Failure Lifecycle :=
  if s ∈ l.current.successors then .ok ⟨l.past ++ [l.current], s⟩
  else .error (illegal l.current s)

def history (l : Lifecycle) : List CheckState := l.past ++ [l.current]

end Lifecycle
end VisaEligibility
