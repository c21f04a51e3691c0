import Mathlib.Algebra.Order.Field.Basic
import Mathlib.Algebra.Order.Field.Power
import Mathlib.Data.Rat.Cast.Order
import Mathlib.Tactic.Positivity
import VisaEligibility.Proofs.Number.Counting
/-!
Rounding to the nearest double is monotone: of two nonnegative rationals the greater one does not
round to a smaller number.
-/
set_option autoImplicit false

namespace VisaEligibility.Number

theorem cast_pow2 (n : Nat) : ((pow2 n : Nat) : Rat) = 2 ^ n := Nat.cast_pow 2 n

theorem pow2_pos (n : Nat) : 0 < pow2 n := Nat.two_pow_pos n

theorem nearestInteger_mono_left {n n' d : Nat} (h : n ≤ n') :
    nearestInteger n d ≤ nearestInteger n' d := by
  have split := Nat.div_add_mod n d
  have split' := Nat.div_add_mod n' d
  have parity := Nat.mod_two_eq_zero_or_one (n / d)
  unfold nearestInteger
  rcases Nat.lt_or_eq_of_le (Nat.div_le_div_right (c := d) h) with less | same
  · dsimp only
    split_ifs <;> omega
  · have remainder : n % d ≤ n' % d := by
      rw [← same] at split'
      omega
    rw [← same]
    dsimp only
    split_ifs <;> omega

theorem nearestInteger_mul_right (n d : Nat) {k : Nat} (positive : 0 < k) :
    nearestInteger (n * k) (d * k) = nearestInteger n d := by
  have below : 2 * (n % d * k) < d * k ↔ 2 * (n % d) < d := by
    rw [← Nat.mul_assoc, Nat.mul_lt_mul_right positive]
  have above : d * k < 2 * (n % d * k) ↔ d < 2 * (n % d) := by
    rw [← Nat.mul_assoc, Nat.mul_lt_mul_right positive]
  simp only [nearestInteger, Nat.mul_div_mul_right _ _ positive, Nat.mul_mod_mul_right, below, above]

theorem nearestInteger_mono {n d n' d' : Nat} (hd : 0 < d) (hd' : 0 < d')
    (h : (n : Rat) / d ≤ n' / d') : nearestInteger n d ≤ nearestInteger n' d' := by
  have crossed : n * d' ≤ n' * d := by
    rw [div_le_div_iff₀ (Nat.cast_pos.2 hd) (Nat.cast_pos.2 hd')] at h
    exact_mod_cast h
  rw [← nearestInteger_mul_right n d hd', ← nearestInteger_mul_right n' d' hd, Nat.mul_comm d' d]
  exact nearestInteger_mono_left crossed

theorem le_nearestInteger {N n d : Nat} (hd : 0 < d) (h : (N : Rat) ≤ n / d) :
    N ≤ nearestInteger n d := by
  rw [← nearestInteger_one N]
  exact nearestInteger_mono Nat.one_pos hd (by simpa using h)

theorem nearestInteger_le {N n d : Nat} (hd : 0 < d) (h : (n : Rat) / d ≤ N) :
    nearestInteger n d ≤ N := by
  rw [← nearestInteger_one N]
  exact nearestInteger_mono hd Nat.one_pos (by simpa using h)

theorem zpow_eq_div (e : Int) : (2 : Rat) ^ e = pow2 e.toNat / pow2 (-e).toNat := by
  rw [cast_pow2, cast_pow2]
  obtain ⟨k, rfl | rfl⟩ := e.eq_nat_or_neg
  · simp
  · simp

theorem scaled_eq (m : Nat) (e : Int) : scaled m e = m * 2 ^ e := by
  rw [zpow_eq_div]
  unfold scaled
  split
  · rename_i nonneg
    have none : (-e).toNat = 0 := by omega
    have one : pow2 0 = 1 := rfl
    simp [none, one]
  · have none : e.toNat = 0 := by omega
    have one : pow2 0 = 1 := rfl
    rw [Rat.mkRat_eq_div]
    simp [none, one, div_eq_mul_inv]

theorem shifted_eq (n d : Nat) (e : Int) :
    ((n * pow2 (-e).toNat : Nat) : Rat) / (d * pow2 e.toNat : Nat) = n / d / 2 ^ e := by
  rw [zpow_eq_div, Nat.cast_mul, Nat.cast_mul, div_div_div_eq]

variable {n d n' d' : Nat}

theorem zpow_le_iff (hd : 0 < d) (e : Int) :
    d * pow2 e.toNat ≤ n * pow2 (-e).toNat ↔ (2 : Rat) ^ e ≤ n / d := by
  rw [zpow_eq_div, div_le_div_iff₀ (Nat.cast_pos.2 (pow2_pos _)) (Nat.cast_pos.2 hd),
    Nat.mul_comm d]
  exact_mod_cast Iff.rfl

theorem binaryExponent_bounds (hn : 0 < n) (hd : 0 < d) :
    (2 : Rat) ^ binaryExponent n d ≤ n / d ∧ (n : Rat) / d < 2 ^ (binaryExponent n d + 1) := by
  have positive : (0 : Rat) < d := Nat.cast_pos.2 hd
  have numerator_low : (2 : Rat) ^ n.log2 ≤ n := by
    exact_mod_cast Nat.log2_self_le hn.ne'
  have numerator_high : (n : Rat) < 2 ^ (n.log2 + 1) := by exact_mod_cast Nat.lt_log2_self
  have denominator_low : (2 : Rat) ^ d.log2 ≤ d := by exact_mod_cast Nat.log2_self_le hd.ne'
  have denominator_high : (d : Rat) < 2 ^ (d.log2 + 1) := by exact_mod_cast Nat.lt_log2_self
  have above : (n : Rat) / d < 2 ^ ((n.log2 : Int) - d.log2 + 1) := by
    rw [div_lt_iff₀ positive]
    calc (n : Rat) < 2 ^ (n.log2 + 1) := numerator_high
      _ = 2 ^ ((n.log2 : Int) - d.log2 + 1) * 2 ^ d.log2 := by
        rw [← zpow_natCast, ← zpow_natCast, ← zpow_add₀ two_ne_zero]
        congr 1
        push_cast
        omega
      _ ≤ 2 ^ ((n.log2 : Int) - d.log2 + 1) * d := by gcongr
  have below : (2 : Rat) ^ ((n.log2 : Int) - d.log2 - 1) ≤ n / d := by
    rw [le_div_iff₀ positive]
    calc (2 : Rat) ^ ((n.log2 : Int) - d.log2 - 1) * d
        ≤ 2 ^ ((n.log2 : Int) - d.log2 - 1) * 2 ^ (d.log2 + 1) := by gcongr
      _ = 2 ^ n.log2 := by
        rw [← zpow_natCast, ← zpow_natCast, ← zpow_add₀ two_ne_zero]
        congr 1
        push_cast
        omega
      _ ≤ n := numerator_low
  simp only [binaryExponent, zpow_le_iff hd]
  split
  · rename_i fits
    exact ⟨fits, above⟩
  · rename_i exceeds
    refine ⟨below, ?_⟩
    rw [Int.sub_add_cancel]
    exact not_le.1 exceeds

theorem binaryExponent_mono (hn : 0 < n) (hd : 0 < d) (hn' : 0 < n') (hd' : 0 < d')
    (h : (n : Rat) / d ≤ n' / d') : binaryExponent n d ≤ binaryExponent n' d' := by
  have powers : (2 : Rat) ^ binaryExponent n d < 2 ^ (binaryExponent n' d' + 1) :=
    (binaryExponent_bounds hn hd).1.trans_lt (h.trans_lt (binaryExponent_bounds hn' hd').2)
  have := (zpow_lt_zpow_iff_right₀ one_lt_two).1 powers
  omega

/-- The value of the double nearest to the nonnegative `n / d`. -/
def rounded (n d : Nat) : Rat := scaled (significand n d).1 (significand n d).2

theorem rounded_zero (d : Nat) : rounded 0 d = 0 := by
  simp [rounded, significand, scaled_eq]

theorem rounded_of_pos (hn : 0 < n) :
    rounded n d = nearestInteger (n * pow2 (-lastPlace n d).toNat)
      (d * pow2 (lastPlace n d).toNat) * 2 ^ lastPlace n d := by
  rw [rounded, significand, if_neg hn.ne', scaled_eq]

theorem rounded_nonneg (n d : Nat) : 0 ≤ rounded n d := by
  rw [rounded, scaled_eq]
  positivity

theorem denominator_pos (hd : 0 < d) (e : Int) : 0 < d * pow2 e.toNat :=
  Nat.mul_pos hd (pow2_pos _)

theorem zpow_le_rounded (hn : 0 < n) (hd : 0 < d)
    (normal : lastPlace n d = binaryExponent n d - 52) :
    (2 : Rat) ^ binaryExponent n d ≤ rounded n d := by
  have full : (2 ^ 52 : Nat) ≤ nearestInteger (n * pow2 (-lastPlace n d).toNat)
      (d * pow2 (lastPlace n d).toNat) := by
    refine le_nearestInteger (denominator_pos hd _) ?_
    rw [shifted_eq, le_div_iff₀ (by positivity)]
    calc ((2 ^ 52 : Nat) : Rat) * 2 ^ lastPlace n d = 2 ^ binaryExponent n d := by
          rw [normal, Nat.cast_pow, Nat.cast_ofNat, ← zpow_natCast, ← zpow_add₀ two_ne_zero]
          congr 1
          push_cast
          omega
      _ ≤ n / d := (binaryExponent_bounds hn hd).1
  rw [rounded_of_pos hn]
  calc (2 : Rat) ^ binaryExponent n d = (2 ^ 52 : Nat) * 2 ^ lastPlace n d := by
        rw [normal, Nat.cast_pow, Nat.cast_ofNat, ← zpow_natCast, ← zpow_add₀ two_ne_zero]
        congr 1
        push_cast
        omega
    _ ≤ _ := by gcongr

theorem rounded_le_zpow (hn : 0 < n) (hd : 0 < d) {k : Int} (fine : lastPlace n d ≤ k)
    (h : (n : Rat) / d ≤ 2 ^ k) : rounded n d ≤ 2 ^ k := by
  obtain ⟨j, hj⟩ := Int.le.dest fine
  have grid : (2 : Rat) ^ k = (2 ^ j : Nat) * 2 ^ lastPlace n d := by
    rw [← hj, zpow_add₀ two_ne_zero, zpow_natCast, Nat.cast_pow, Nat.cast_ofNat, mul_comm]
  have bounded : nearestInteger (n * pow2 (-lastPlace n d).toNat)
      (d * pow2 (lastPlace n d).toNat) ≤ 2 ^ j := by
    refine nearestInteger_le (denominator_pos hd _) ?_
    rw [shifted_eq, div_le_iff₀ (by positivity), ← grid]
    exact h
  rw [rounded_of_pos hn, grid]
  gcongr

theorem rounded_mono (hd : 0 < d) (hd' : 0 < d') (h : (n : Rat) / d ≤ n' / d') :
    rounded n d ≤ rounded n' d' := by
  rcases Nat.eq_zero_or_pos n with rfl | hn
  · rw [rounded_zero]
    exact rounded_nonneg n' d'
  have hn' : 0 < n' := by
    have positive : (0 : Rat) < n / d := by positivity
    rcases Nat.eq_zero_or_pos n' with rfl | hn'
    · simp only [Nat.cast_zero, zero_div] at h
      exact absurd h (not_le.2 positive)
    · exact hn'
  have exponents := binaryExponent_mono hn hd hn' hd' h
  by_cases same : lastPlace n d = lastPlace n' d'
  · rw [rounded_of_pos hn, rounded_of_pos hn', ← same]
    have significands : nearestInteger (n * pow2 (-lastPlace n d).toNat)
        (d * pow2 (lastPlace n d).toNat) ≤ nearestInteger (n' * pow2 (-lastPlace n d).toNat)
        (d' * pow2 (lastPlace n d).toNat) := by
      refine nearestInteger_mono (denominator_pos hd _) (denominator_pos hd' _) ?_
      rw [shifted_eq, shifted_eq]
      gcongr
    gcongr
  · -- the greater one is at or above a power of two that the other does not exceed
    have normal : lastPlace n' d' = binaryExponent n' d' - 52 := by
      unfold lastPlace at same ⊢
      omega
    have apart : binaryExponent n d + 1 ≤ binaryExponent n' d' := by
      unfold lastPlace at same
      omega
    have fine : lastPlace n d ≤ binaryExponent n' d' := by
      unfold lastPlace at same normal ⊢
      omega
    refine (rounded_le_zpow hn hd fine ?_).trans (zpow_le_rounded hn' hd' normal)
    exact (binaryExponent_bounds hn hd).2.le.trans (zpow_le_zpow_right₀ one_le_two apart)

variable {a b : Rat}

theorem quotient_eq (h : 0 ≤ a) : (a.num.natAbs : Rat) / a.den = a := by
  rw [Nat.cast_natAbs, abs_of_nonneg (Rat.num_nonneg.2 h), Rat.num_div_den]

theorem signed_of_nonneg (h : 0 ≤ a) (r : Rat) : signed (a < 0) r = finite r := by
  have unsigned : decide (a < 0) = false := decide_eq_false (not_lt.2 h)
  rw [unsigned, signed]
  split
  · rename_i none
    rw [none]
    rfl
  · rfl

theorem nearest_of_lt (h : 0 ≤ a) (small : rounded a.num.natAbs a.den < pow2 1024) :
    nearest a = finite (rounded a.num.natAbs a.den) :=
  (if_neg (not_le.2 small)).trans (signed_of_nonneg h _)

theorem nearest_of_le (h : 0 ≤ a) (large : (pow2 1024 : Rat) ≤ rounded a.num.natAbs a.den) :
    nearest a = infinite false :=
  (if_pos large).trans (congrArg infinite (decide_eq_false (not_lt.2 h)))

theorem le_iff {x y : Number} : x.le y = true ↔ x ≠ nan ∧ y ≠ nan ∧
    (x = infinite true ∨ y = infinite false ∨
      x.isFinite = true ∧ y.isFinite = true ∧ x.value ≤ y.value) := by
  have ordered (p q : Rat) : ((some (if p < q then Ordering.lt else if p = q then .eq else .gt) ==
      some .lt) || some (if p < q then Ordering.lt else if p = q then .eq else .gt) == some .eq) =
        true ↔ p ≤ q := by
    rcases lt_trichotomy p q with less | same | more
    · simp [less, less.le]
    · simp [same]
    · simp [more, more.not_gt, more.ne']
  cases x with
  | nan => cases y <;> simp [le, lt, order?]
  | infinite s =>
    cases y with
    | nan => simp [le, lt, order?]
    | infinite t => cases s <;> cases t <;> decide
    | negativeZero => cases s <;> simp [le, lt, order?, isFinite]
    | finite b => cases s <;> simp [le, lt, order?, isFinite]
  | negativeZero =>
    cases y with
    | nan => simp [le, lt, order?]
    | infinite t => cases t <;> simp [le, lt, order?, isFinite]
    | negativeZero => exact (ordered 0 0).trans (by simp [isFinite, value])
    | finite b => exact (ordered 0 b).trans (by simp [isFinite, value])
  | finite a =>
    cases y with
    | nan => simp [le, lt, order?]
    | infinite t => cases t <;> simp [le, lt, order?, isFinite]
    | negativeZero => exact (ordered a 0).trans (by simp [isFinite, value])
    | finite b => exact (ordered a b).trans (by simp [isFinite, value])

theorem le_finite : (finite a).le (finite b) = true ↔ a ≤ b := by
  simp [le_iff, isFinite, value]

theorem le_trans {x y z : Number} (hxy : x.le y = true) (hyz : y.le z = true) :
    x.le z = true := by
  rw [le_iff] at hxy hyz ⊢
  obtain ⟨hx, -, hxy⟩ := hxy
  obtain ⟨-, hz, hyz⟩ := hyz
  refine ⟨hx, hz, ?_⟩
  rcases hxy with rfl | rfl | ⟨fx, fy, values⟩
  · exact .inl rfl
  · rcases hyz with h | h | ⟨h, -⟩
    · cases h
    · exact .inr (.inl h)
    · cases h
  · rcases hyz with rfl | h | ⟨-, fz, values'⟩
    · cases fy
    · exact .inr (.inl h)
    · exact .inr (.inr ⟨fx, fz, values.trans values'⟩)

theorem nearest_mono (h : 0 ≤ a) (hab : a ≤ b) : (nearest a).le (nearest b) = true := by
  have values : rounded a.num.natAbs a.den ≤ rounded b.num.natAbs b.den := by
    refine rounded_mono a.den_pos b.den_pos ?_
    rw [quotient_eq h, quotient_eq (h.trans hab)]
    exact hab
  rcases lt_or_ge (rounded b.num.natAbs b.den) (pow2 1024) with small | large
  · rw [nearest_of_lt h (values.trans_lt small), nearest_of_lt (h.trans hab) small]
    exact le_finite.2 values
  · rw [nearest_of_le (h.trans hab) large]
    rcases lt_or_ge (rounded a.num.natAbs a.den) (pow2 1024) with small | large
    · rw [nearest_of_lt h small]
      rfl
    · rw [nearest_of_le h large]
      rfl

end VisaEligibility.Number
