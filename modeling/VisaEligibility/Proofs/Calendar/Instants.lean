import VisaEligibility.Calendar.Instant
/-!
Times compared. Valid times are ordered as their milliseconds are, and are equal if neither is
earlier.
-/
set_option autoImplicit false

namespace VisaEligibility

namespace Instant

def millis : Instant → Int
  | ofMillis ms => ms
  | invalid => 0

variable {a b : Instant}

theorem order?_of_valid (ha : a.isValid = true) (hb : b.isValid = true) :
    a.order? b = some (compare a.millis b.millis) := by
  cases a with
  | invalid => cases ha
  | ofMillis i =>
    cases b with
    | invalid => cases hb
    | ofMillis j => rfl

theorem lt_of_valid (ha : a.isValid = true) (hb : b.isValid = true) :
    a.lt b = (compare a.millis b.millis == .lt) := by
  rw [lt, order?_of_valid ha hb]
  rfl

theorem lt_iff_of_valid (ha : a.isValid = true) (hb : b.isValid = true) :
    a.lt b = true ↔ a.millis < b.millis := by
  rw [lt_of_valid ha hb, beq_iff_eq, Int.compare_eq_lt]

theorem le_iff_of_valid (ha : a.isValid = true) (hb : b.isValid = true) :
    a.le b = true ↔ a.millis ≤ b.millis := by
  rw [le, Bool.or_eq_true, lt_iff_of_valid ha hb, order?_of_valid ha hb, beq_iff_eq,
    Option.some.injEq, Int.compare_eq_eq]
  omega

theorem eq_of_millis (ha : a.isValid = true) (hb : b.isValid = true) (h : a.millis = b.millis) :
    a = b := by
  cases a with
  | invalid => cases ha
  | ofMillis i =>
    cases b with
    | invalid => cases hb
    | ofMillis j => exact congrArg ofMillis h

theorem eq_of_not_lt (ha : a.isValid = true) (hb : b.isValid = true) (hab : a.lt b = false)
    (hba : b.lt a = false) : a = b := by
  rw [lt_of_valid ha hb] at hab
  rw [lt_of_valid hb ha] at hba
  refine eq_of_millis ha hb ?_
  simp only [beq_eq_false_iff_ne, ne_eq, Int.compare_eq_lt] at hab hba
  omega

end Instant

end VisaEligibility
