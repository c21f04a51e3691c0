import Mathlib.Tactic.Linarith
import Mathlib.Tactic.Ring
import VisaEligibility.Proofs.Number.Order
/-!
Adding nonnegative numbers. Sums are rounded, and a rounded number is not rounded any further: so a
sum is at least each of its terms, and it grows with them.
-/
set_option autoImplicit false

namespace VisaEligibility.Number

section Rounding

variable {n d : Nat}

theorem rounded_of_grid (hn : 0 < n) (hd : 0 < d) {m : Nat} {e : Int}
    (grid : (n : Rat) / d = m * 2 ^ e) (fine : lastPlace n d ≤ e) : rounded n d = n / d := by
  obtain ⟨j, hj⟩ := Int.le.dest fine
  have multiple : (n : Rat) / d = (m * 2 ^ j : Nat) * 2 ^ lastPlace n d := by
    rw [grid, ← hj, zpow_add₀ two_ne_zero, zpow_natCast]
    push_cast
    ring
  have exact : (n : Rat) / d / 2 ^ lastPlace n d = (m * 2 ^ j : Nat) := by
    rw [multiple, mul_div_cancel_right₀ _ (by positivity)]
  have significand : nearestInteger (n * pow2 (-lastPlace n d).toNat)
      (d * pow2 (lastPlace n d).toNat) = m * 2 ^ j := by
    refine Nat.le_antisymm (nearestInteger_le (denominator_pos hd _) ?_)
      (le_nearestInteger (denominator_pos hd _) ?_)
    · rw [shifted_eq, exact]
    · rw [shifted_eq, exact]
  rw [rounded_of_pos hn, significand, multiple]

theorem lastPlace_le (hn : 0 < n) (hd : 0 < d) {e : Int} (least : -1074 ≤ e)
    (h : (n : Rat) / d < 2 ^ (e + 53)) : lastPlace n d ≤ e := by
  have below : (2 : Rat) ^ binaryExponent n d < 2 ^ (e + 53) :=
    (binaryExponent_bounds hn hd).1.trans_lt h
  have := (zpow_lt_zpow_iff_right₀ one_lt_two).1 below
  unfold lastPlace
  omega

theorem exists_rounded (hn : 0 < n) (hd : 0 < d) :
    ∃ m : Nat, m ≤ 2 ^ 53 ∧ rounded n d = m * 2 ^ lastPlace n d := by
  refine ⟨_, nearestInteger_le (denominator_pos hd _) ?_, rounded_of_pos hn⟩
  rw [shifted_eq, div_le_iff₀ (by positivity)]
  refine (binaryExponent_bounds hn hd).2.le.trans ?_
  have place : binaryExponent n d + 1 ≤ 53 + lastPlace n d := by
    unfold lastPlace
    omega
  calc (2 : Rat) ^ (binaryExponent n d + 1) ≤ 2 ^ (53 + lastPlace n d) :=
        zpow_le_zpow_right₀ one_le_two place
    _ = (2 ^ 53 : Nat) * 2 ^ lastPlace n d := by
        rw [zpow_add₀ two_ne_zero]
        norm_num

theorem rounded_rounded (hd : 0 < d) {n' d' : Nat} (hd' : 0 < d')
    (same : (n' : Rat) / d' = rounded n d) : rounded n' d' = rounded n d := by
  rcases Nat.eq_zero_or_pos n' with rfl | hn'
  · rw [rounded_zero, ← same]
    simp
  have hn : 0 < n := by
    rcases Nat.eq_zero_or_pos n with rfl | hn
    · rw [rounded_zero] at same
      have : (0 : Rat) < n' / d' := by positivity
      exact absurd same this.ne'
    · exact hn
  obtain ⟨m, bits, value⟩ := exists_rounded hn hd
  have least : -1074 ≤ lastPlace n d := le_max_right _ _
  rw [← same]
  rw [value] at same
  rcases Nat.lt_or_eq_of_le bits with fewer | rfl
  · refine rounded_of_grid hn' hd' same (lastPlace_le hn' hd' least ?_)
    rw [same, zpow_add₀ two_ne_zero, mul_comm]
    gcongr
    exact_mod_cast fewer
  · -- all bits were carried: the number is a power of two
    have power : (n' : Rat) / d' = (1 : Nat) * 2 ^ (lastPlace n d + 53) := by
      rw [same, zpow_add₀ two_ne_zero]
      push_cast
      ring
    refine rounded_of_grid hn' hd' power (lastPlace_le hn' hd' (by omega) ?_)
    rw [power, Nat.cast_one, one_mul]
    exact zpow_lt_zpow_right₀ one_lt_two (by omega)

end Rounding

/-- A nonnegative number that rounding leaves as it is. -/
inductive Double : Number → Prop where
  | infinite : Double (.infinite false)
  | finite {q : Rat} (nonneg : 0 ≤ q) (same : nearest q = .finite q) : Double (.finite q)

theorem double_nearest {q : Rat} (h : 0 ≤ q) : Double (nearest q) := by
  rcases lt_or_ge (rounded q.num.natAbs q.den) (pow2 1024) with small | large
  · rw [nearest_of_lt h small]
    have nonneg := rounded_nonneg q.num.natAbs q.den
    have again := rounded_rounded q.den_pos (Rat.den_pos _) (quotient_eq nonneg)
    refine .finite nonneg ?_
    rw [nearest_of_lt nonneg (by rw [again]; exact small), again]
  · rw [nearest_of_le h large]
    exact .infinite

theorem double_natCast {n : Nat} (small : n < 2 ^ 53) : Double (finite n) :=
  .finite (Nat.cast_nonneg n) (nearest_natCast small)

theorem zero_le_iff {t : Number} : Number.le 0 t = true ↔
    t = infinite false ∨ t.isFinite = true ∧ 0 ≤ t.value := by
  have zero : (0 : Number) = finite 0 := rfl
  rw [zero, le_iff]
  cases t <;> simp [isFinite, value]

variable {x y s t : Number}

theorem Double.zero_le (hx : Double x) : Number.le 0 x = true := by
  cases hx with
  | infinite => rfl
  | finite nonneg _ => exact le_finite.2 nonneg

theorem finite_add {a : Rat} (ht : t.isFinite = true) :
    Number.finite a + t = nearest (a + t.value) := by
  cases t with
  | nan => cases ht
  | infinite negative => cases ht
  | negativeZero => rfl
  | finite b => rfl

theorem Double.add (hx : Double x) (ht : Number.le 0 t = true) : Double (x + t) := by
  rcases zero_le_iff.1 ht with rfl | ⟨known, nonneg⟩
  · cases hx <;> exact .infinite
  · cases hx with
    | infinite => cases t <;> first | exact .infinite | cases known
    | finite hq _ =>
      rw [finite_add known]
      exact double_nearest (add_nonneg hq nonneg)

theorem le_infinite (hx : Double x) : x.le (.infinite false) = true := by
  cases hx <;> rfl

theorem add_le_add (hx : Double x) (hy : Double y) (hxy : x.le y = true)
    (hs : Number.le 0 s = true) (hst : s.le t = true) : (x + s).le (y + t) = true := by
  have ht := le_trans hs hst
  have top (h : y + t = .infinite false) : (x + s).le (y + t) = true := by
    rw [h]
    exact le_infinite (hx.add hs)
  rcases zero_le_iff.1 ht with rfl | ⟨known, -⟩
  · cases hy <;> exact top rfl
  · cases hy with
    | infinite => cases t <;> first | exact top rfl | cases known
    | finite hb _ =>
      cases hx with
      | infinite => cases hxy
      | finite ha _ =>
        rcases zero_le_iff.1 hs with rfl | ⟨known', nonneg⟩
        · cases t <;> first | cases hst | cases known
        · have values : s.value ≤ t.value := by
            rcases le_iff.1 hst with ⟨-, -, rfl | rfl | ⟨-, -, values⟩⟩
            · cases known'
            · cases known
            · exact values
          have terms := le_finite.1 hxy
          rw [finite_add known', finite_add known]
          exact nearest_mono (add_nonneg ha nonneg) (by linarith)

theorem le_add (hx : Double x) (ht : Number.le 0 t = true) : x.le (x + t) = true := by
  rcases zero_le_iff.1 ht with rfl | ⟨known, nonneg⟩
  · cases hx <;> rfl
  · cases hx with
    | infinite => cases t <;> first | rfl | cases known
    | finite hq same =>
      rw [finite_add known]
      have grown := nearest_mono hq (le_add_of_nonneg_right nonneg)
      rwa [same] at grown

theorem natCast_add_natCast {a b : Nat} (small : a + b < 2 ^ 53) :
    Number.finite a + Number.finite b = Number.finite (a + b : Nat) := by
  rw [finite_add rfl, ← nearest_natCast small, Nat.cast_add]
  rfl

theorem sub_natCast_le {a b : Nat} (hx : Double x) (reached : (finite a).le x = true)
    (within : x.le (finite (a + b : Nat)) = true) (small : b < 2 ^ 53) :
    (x - finite a).le (finite b) = true := by
  have opposite : (finite a).neg.isFinite = true ∧ (finite a).neg.value = -a := by
    by_cases none : (a : Rat) = 0
    · simp [neg, none, isFinite, value]
    · simp [neg, none, isFinite, value]
  cases hx with
  | infinite => cases within
  | @finite q _ _ =>
    rw [le_finite] at reached within
    push_cast at within
    have difference : Number.finite q - Number.finite a = nearest (q - a) := by
      rw [sub_eq_add_neg, ← opposite.2]
      exact finite_add opposite.1
    rw [difference, ← nearest_natCast small]
    exact nearest_mono (by linarith) (by linarith)

end VisaEligibility.Number
