/-!
Outcomes of an assessment, ordered from refusal over review to eligibility.
-/
set_option autoImplicit false

namespace VisaEligibility

inductive Outcome where
  | eligible
  | notEligible
  | requiresReview
deriving DecidableEq, Repr, Inhabited

namespace Outcome

def name : Outcome → String
  | eligible => "eligible"
  | notEligible => "not_eligible"
  | requiresReview => "requires_review"

def all : List Outcome := [eligible, notEligible, requiresReview]

def ofName? (s : String) : Option Outcome := all.find? fun o => o.name == s

def rank : Outcome → Nat
  | notEligible => 0
  | requiresReview => 1
  | eligible => 2

/-- One outcome is eligible and the other not; review conflicts with nothing. -/
def conflicts (a b : Outcome) : Bool :=
  (a = eligible && b = notEligible) || (a = notEligible && b = eligible)

theorem ofName?_name (o : Outcome) : ofName? o.name = some o := by
  cases o <;> decide

end Outcome
end VisaEligibility
