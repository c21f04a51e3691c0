import Mathlib.Data.List.TakeDrop
import Mathlib.Data.List.TakeWhile
import Mathlib.Tactic.FieldSimp
import Mathlib.Tactic.Ring
import VisaEligibility.Number.Reading
import VisaEligibility.Proofs.Number.Rounding
/-!
Reading decimal numerals. What is read is the double nearest to the value written, also beyond the
exponents at which reading stops to compute it.
-/
set_option autoImplicit false

namespace VisaEligibility

theorem ne_of_isDigit {c d : Char} (h : c.isDigit = true) (hd : d.isDigit = false) : c ≠ d := by
  rintro rfl
  cases h.symm.trans hd

/-- A decimal numeral: digits, or digits with a point and more digits. -/
structure Numeral where
  whole : List Char
  /-- The digits after the point; there is no point without any. -/
  part : List Char
  whole_ne_nil : whole ≠ []
  whole_isDigit : ∀ c ∈ whole, c.isDigit = true
  part_isDigit : ∀ c ∈ part, c.isDigit = true

namespace Number

theorem ofDigits_append (ds es : List Char) :
    ofDigits (ds ++ es) = ofDigits ds * 10 ^ es.length + ofDigits es := by
  have shifted (es : List Char) (n : Nat) :
      es.foldl (fun n c => 10 * n + digitValue c) n = n * 10 ^ es.length + ofDigits es := by
    induction es generalizing n with
    | nil => simp [ofDigits]
    | cons e es ih =>
      have first : ofDigits (e :: es) = digitValue e * 10 ^ es.length + ofDigits es := by
        rw [ofDigits, List.foldl_cons, ih, Nat.mul_zero, Nat.zero_add]
      rw [List.foldl_cons, ih, first, List.length_cons, Nat.pow_succ]
      ring
  rw [ofDigits, List.foldl_append, shifted]
  rfl

theorem cast_pow10 (n : Nat) : ((pow10 n : Nat) : Rat) = 10 ^ n := Nat.cast_pow 10 n

variable {a : Rat}

theorem nearest_cases (h : 0 ≤ a) :
    (∃ r, 0 ≤ r ∧ nearest a = finite r) ∨ nearest a = infinite false := by
  rcases lt_or_ge (rounded a.num.natAbs a.den) (pow2 1024) with small | large
  · exact .inl ⟨_, rounded_nonneg _ _, nearest_of_lt h small⟩
  · exact .inr (nearest_of_le h large)

theorem withZeroSign_nearest (h : 0 ≤ a) : (nearest a).withZeroSign false = nearest a := by
  rcases nearest_cases h with ⟨r, -, hr⟩ | hr
  · rw [hr, withZeroSign]
    split
    · rename_i none
      rw [of_decide_eq_true none]
      rfl
    · rfl
  · rw [hr]
    rfl

theorem nearest_of_tiny (h : 0 ≤ a) (tiny : a ≤ 10 ^ (-400 : Int)) : nearest a = finite 0 := by
  have bound : nearest (mkRat 1 (pow10 400)) = finite 0 := by decide +kernel
  have limit : (10 : Rat) ^ (-400 : Int) = mkRat 1 (pow10 400) := by
    rw [Rat.mkRat_eq_div, cast_pow10, Int.cast_one, one_div, ← zpow_natCast, ← zpow_neg]
    rfl
  have below := nearest_mono h (tiny.trans_eq limit)
  rw [bound] at below
  rcases nearest_cases h with ⟨r, hr, rounds⟩ | rounds
  · rw [rounds, le_finite] at below
    rw [rounds, le_antisymm below hr]
  · rw [rounds] at below
    cases below

theorem nearest_of_huge (huge : (10 : Rat) ^ (400 : Int) ≤ a) : nearest a = infinite false := by
  have bound : nearest (pow10 400 : Nat) = infinite false := by decide +kernel
  have limit : ((pow10 400 : Nat) : Rat) = 10 ^ (400 : Int) := by
    rw [cast_pow10, ← zpow_natCast]
    rfl
  have nonneg : (0 : Rat) ≤ (pow10 400 : Nat) := Nat.cast_nonneg _
  have above := nearest_mono nonneg (limit.trans_le huge)
  rw [bound] at above
  rcases nearest_cases (nonneg.trans (limit.trans_le huge)) with ⟨r, -, rounds⟩ | rounds
  · rw [rounds] at above
    cases above
  · exact rounds

theorem digits_bounds {m : Nat} (hm : m ≠ 0) :
    10 ^ ((digits m).length - 1) ≤ m ∧ m < 10 ^ (digits m).length := by
  have some : 0 < (digits m).length := Nat.length_toDigits_pos
  refine ⟨?_, (Nat.length_toDigits_le_iff (by decide) some).1 (Nat.le_refl _)⟩
  rcases Nat.eq_zero_or_pos ((digits m).length - 1) with one | more
  · rw [one]
    exact Nat.one_le_iff_ne_zero.2 hm
  · refine Nat.not_lt.1 fun less => ?_
    have := (Nat.length_toDigits_le_iff (by decide) more).2 less
    change (digits m).length ≤ (digits m).length - 1 at this
    omega

theorem span_isDigit_append {front rest : List Char} (h : ∀ c ∈ front, c.isDigit = true)
    (stops : ∀ c ∈ rest.head?, c.isDigit = false) :
    (front ++ rest).span Char.isDigit = (front, rest) := by
  rw [List.span_eq_takeWhile_dropWhile, List.takeWhile_append_of_pos h,
    List.dropWhile_append_of_pos h]
  cases rest with
  | nil => simp
  | cons c cs => simp [stops c rfl]

/-- A decimal is read as the double nearest to it; the limit on exponents leaves out only what rounds
to zero or infinity. -/
theorem ofDecimal_eq_nearest (m : Nat) (e : Int) :
    ofDecimal false m e = nearest (m * 10 ^ e) := by
  have none : nearest 0 = finite 0 := by decide +kernel
  by_cases hm : m = 0
  · subst hm
    rw [Nat.cast_zero, zero_mul, none]
    rfl
  obtain ⟨low, high⟩ := digits_bounds hm
  have some : 0 < (digits m).length := Nat.length_toDigits_pos
  have nonneg : (0 : Rat) ≤ m * 10 ^ e := by positivity
  have value : (if 0 ≤ e then ((m * pow10 e.toNat : Nat) : Rat)
      else mkRat m (pow10 (-e).toNat)) = m * 10 ^ e := by
    split
    · rename_i whole
      have power : (10 : Rat) ^ e = 10 ^ e.toNat := by
        rw [← zpow_natCast, Int.toNat_of_nonneg whole]
      rw [Nat.cast_mul, cast_pow10, power]
    · have power : (10 : Rat) ^ e = (10 ^ (-e).toNat)⁻¹ := by
        rw [← zpow_natCast, Int.toNat_of_nonneg (by omega), zpow_neg, inv_inv]
      rw [Rat.mkRat_eq_div, cast_pow10, power, Int.cast_natCast, div_eq_mul_inv]
  unfold ofDecimal
  dsimp only
  -- the digits of `m` and the exponent bound the value from both sides, so that what is beyond the
  -- limit lies where every value rounds to the same
  by_cases tiny : ((digits m).length : Int) + e < -exponentLimit
  · rw [if_pos (by simp [tiny]), nearest_of_tiny nonneg ?_]
    · rfl
    calc (m : Rat) * 10 ^ e ≤ 10 ^ (digits m).length * 10 ^ e := by
          gcongr
          exact_mod_cast high.le
      _ = 10 ^ ((digits m).length + e) := by
          rw [← zpow_natCast, ← zpow_add₀ (by norm_num)]
      _ ≤ 10 ^ (-400 : Int) := zpow_le_zpow_right₀ (by norm_num) tiny.le
  rw [if_neg (by simp [tiny, hm])]
  by_cases huge : exponentLimit < ((digits m).length : Int) + e
  · rw [if_pos huge]
    refine (nearest_of_huge ?_).symm
    change 400 < ((digits m).length : Int) + e at huge
    calc (10 : Rat) ^ (400 : Int) ≤ 10 ^ (((digits m).length - 1 : Nat) + e) :=
          zpow_le_zpow_right₀ (by norm_num) (by omega)
      _ = 10 ^ ((digits m).length - 1) * 10 ^ e := by
          rw [zpow_add₀ (by norm_num), zpow_natCast]
      _ ≤ m * 10 ^ e := by
          gcongr
          exact_mod_cast low
  · rw [if_neg huge, value, if_neg Bool.false_ne_true]
    exact withZeroSign_nearest nonneg

end Number

namespace Numeral

open Number

variable (d : Numeral)

def pointed : List Char := if d.part = [] then [] else '.' :: d.part

def chars : List Char := d.whole ++ d.pointed

def text : String := String.ofList d.chars

def value : Rat := ofDigits d.whole + ofDigits d.part / 10 ^ d.part.length

theorem value_nonneg : 0 ≤ d.value := by
  unfold value
  positivity

theorem value_eq :
    d.value = ofDigits (d.whole ++ d.part) * 10 ^ (-(d.part.length : Int)) := by
  rw [ofDigits_append, value, zpow_neg, zpow_natCast]
  push_cast
  field_simp

theorem exists_digit : ∃ c cs, d.chars = c :: cs ∧ c.isDigit = true := by
  cases hw : d.whole with
  | nil => exact absurd hw d.whole_ne_nil
  | cons c cs =>
    refine ⟨c, cs ++ d.pointed, ?_, d.whole_isDigit c (by simp [hw])⟩
    rw [chars, hw, List.cons_append]

theorem span_chars : d.chars.span Char.isDigit = (d.whole, d.pointed) := by
  refine span_isDigit_append d.whole_isDigit ?_
  unfold pointed
  split <;> simp

theorem span_part : d.part.span Char.isDigit = (d.part, []) := by
  have stops : ∀ c ∈ ([] : List Char).head?, c.isDigit = false := by simp
  simpa using span_isDigit_append d.part_isDigit stops

theorem takeDecimal?_chars (minus : Bool) : takeDecimal? minus d.chars =
    some (ofDecimal minus (ofDigits (d.whole ++ d.part)) (0 - d.part.length), []) := by
  have nonempty : d.whole.isEmpty = false := by simp [d.whole_ne_nil]
  unfold takeDecimal? spanDigits
  simp only [span_chars]
  by_cases hp : d.part = []
  · rw [pointed, if_pos hp, hp]
    simp only [nonempty, Bool.false_and, Bool.false_eq_true, if_false, takeExponent]
  · rw [pointed, if_neg hp]
    simp only [span_part, nonempty, Bool.false_and, Bool.false_eq_true, if_false, takeExponent]

theorem ofDecimal_digits :
    ofDecimal false (ofDigits (d.whole ++ d.part)) (0 - d.part.length) = nearest d.value := by
  rw [ofDecimal_eq_nearest, zero_sub, ← value_eq]

theorem infinityWord_isPrefixOf : infinityWord.isPrefixOf d.chars = false := by
  obtain ⟨c, cs, hc, digit⟩ := d.exists_digit
  have word : infinityWord = 'I' :: "nfinity".toList := by decide
  have other : ('I' == c) = false := beq_eq_false_iff_ne.2 (ne_of_isDigit digit rfl).symm
  rw [hc, word, List.isPrefixOf_cons_cons, other, Bool.false_and]

theorem ofStart_text : ofStart d.text = nearest d.value := by
  obtain ⟨c, cs, hc, digit⟩ := d.exists_digit
  have trimmed : Text.trimLeft d.text.toList = d.chars := by
    rw [text, String.toList_ofList, hc, Text.trimLeft,
      List.dropWhile_cons_of_neg (by simp [Text.isBlank_of_isDigit digit])]
  have unsigned : takeSign d.chars = (false, d.chars) := by
    rw [hc]
    unfold takeSign
    split
    · rename_i minus
      exact absurd (List.cons.inj minus).1 (ne_of_isDigit digit rfl)
    · rename_i plus
      exact absurd (List.cons.inj plus).1 (ne_of_isDigit digit rfl)
    · rfl
  rw [ofStart, trimmed, takeNumeral?, unsigned]
  dsimp only
  rw [d.infinityWord_isPrefixOf, if_neg Bool.false_ne_true, takeDecimal?_chars, ofDecimal_digits]

end Numeral
end VisaEligibility
