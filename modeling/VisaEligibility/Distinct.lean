/-!
Lists with repetitions removed.
-/
set_option autoImplicit false

namespace VisaEligibility

/-- Keeps the first occurrence of each element. -/
def distinct {α : Type} [DecidableEq α] (l : List α) : List α :=
  l.foldl (fun seen a => if a ∈ seen then seen else seen ++ [a]) []

end VisaEligibility
