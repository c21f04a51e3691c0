import Mathlib.Tactic.Linarith
import VisaEligibility.Proofs.Number.Numeral
/-!
Numbers and their negatives. Rounding, reading a decimal and taking a percentage give the negative
of what they give without the sign.
-/
set_option autoImplicit false

namespace VisaEligibility

namespace Number

variable {a b : Rat}

theorem nearest_neg (h : 0 < a) : nearest (-a) = (nearest a).neg := by
  have minus : decide (-a < 0) = true := by simpa using h
  have plus : decide (a < 0) = false := by simpa using h.le
  unfold nearest
  simp only [Rat.neg_num, Rat.neg_den, Int.natAbs_neg, minus, plus]
  split
  · rfl
  · unfold signed zero
    split
    · rename_i none
      simp [neg]
    · rename_i some
      simp [neg, some]

theorem neg_withZeroSign (x : Number) :
    (x.withZeroSign false).neg = x.neg.withZeroSign true := by
  cases x with
  | nan => rfl
  | infinite negative => rfl
  | negativeZero => rfl
  | finite r =>
    by_cases none : r = 0
    · subst none
      rfl
    · simp [withZeroSign, isZero, neg, none]

theorem ofDecimal_neg (m : Nat) (e : Int) : ofDecimal true m e = (ofDecimal false m e).neg := by
  unfold ofDecimal
  dsimp only
  split
  · rfl
  · rename_i some
    split
    · rfl
    · have positive : (0 : Rat) < if 0 ≤ e then ((m * pow10 e.toNat : Nat) : Rat)
          else mkRat m (pow10 (-e).toNat) := by
        have hm : 0 < m := by
          simp only [Bool.or_eq_true, decide_eq_true_eq, not_or] at some
          omega
        have hp (n : Nat) : 0 < pow10 n := Nat.pow_pos (by decide)
        split
        · exact_mod_cast Nat.mul_pos hm (hp _)
        · rw [Rat.mkRat_eq_div]
          have := hp (-e).toNat
          positivity
      rw [if_pos rfl, if_neg Bool.false_ne_true, nearest_neg positive, neg_withZeroSign]

theorem ofNat_hundred : (100 : Number) = finite 100 := congrArg finite Nat.cast_ofNat

theorem div_hundred (h : 0 ≤ a) : (finite a).div 100 = nearest (a / 100) := by
  have rounded := withZeroSign_nearest (a := a / 100) (by positivity)
  have plus : ¬(100 : Rat) < 0 := by norm_num
  have plus' : ¬a < 0 := not_lt.2 h
  simpa [ofNat_hundred, div, negative, isZero, value, plus, plus'] using rounded

theorem neg_div_hundred (h : 0 ≤ a) :
    (finite a).neg.div 100 = ((finite a).div 100).neg := by
  rw [div_hundred h]
  by_cases none : a = 0
  · subst none
    decide +kernel
  · have positive : 0 < a := lt_of_le_of_ne h (Ne.symm none)
    have rounded := withZeroSign_nearest (a := a / 100) (by positivity)
    have negated := nearest_neg (a := a / 100) (by positivity)
    have plus : ¬(100 : Rat) < 0 := by norm_num
    rw [← rounded, neg_withZeroSign, ← negated]
    simp [ofNat_hundred, neg, none, div, negative, isZero, value, positive, neg_div, plus]

theorem zero_le_neg {x : Number} : Number.le 0 x.neg = true ↔ x.le 0 = true := by
  cases x with
  | nan => decide
  | infinite negative => cases negative <;> decide
  | negativeZero => decide
  | finite r =>
    by_cases none : r = 0
    · subst none
      decide +kernel
    · have negated : (finite r).neg = finite (-r) := if_neg none
      rw [negated]
      exact le_finite.trans (neg_nonneg.trans le_finite.symm)

theorem neg_le_zero {x : Number} (h : Number.le 0 x = true) : x.neg.le 0 = true := by
  cases x with
  | nan => cases h
  | infinite negative => cases negative <;> first | rfl | cases h
  | negativeZero => decide
  | finite r =>
    by_cases none : r = 0
    · subst none
      decide +kernel
    · have negated : (finite r).neg = finite (-r) := if_neg none
      rw [negated]
      exact le_finite.2 (neg_nonpos.2 (le_finite.1 h))

end Number

end VisaEligibility
