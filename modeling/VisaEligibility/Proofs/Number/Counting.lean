import Mathlib.Algebra.Order.Ring.Rat
import Mathlib.Data.Nat.Log
import Mathlib.Data.Rat.Cast.Order
import VisaEligibility.Number.Basic
/-!
Counting in numbers. The natural numbers up to `2 ^ 53` are numbers; one more than the last of them
rounds back to it, so a count that gets there stays.
-/
set_option autoImplicit false

namespace VisaEligibility.Number

theorem nearestInteger_one (n : Nat) : nearestInteger n 1 = n := by
  simp [nearestInteger, Nat.mod_one]

theorem binaryExponent_one {n : Nat} (hn : n ≠ 0) : binaryExponent n 1 = n.log2 := by
  have fits : pow2 n.log2 ≤ n := Nat.log2_self_le hn
  have one : (1 : Nat).log2 = 0 := by decide
  have opposite : (-(n.log2 : Int)).toNat = 0 := by omega
  have whole : pow2 0 = 1 := rfl
  simp [binaryExponent, one, opposite, whole, fits]

theorem significand_natCast {n : Nat} (hn : n ≠ 0) (small : n < 2 ^ 53) :
    significand n 1 = (n * pow2 (52 - n.log2), -((52 - n.log2 : Nat) : Int)) := by
  have bits : n.log2 < 53 := (Nat.log2_lt hn).2 small
  have place : lastPlace n 1 = -((52 - n.log2 : Nat) : Int) := by
    rw [lastPlace, binaryExponent_one hn]
    omega
  generalize 52 - n.log2 = k at place ⊢
  have shift : (- -(k : Int)).toNat = k := by omega
  have unshifted : (-(k : Int)).toNat = 0 := by omega
  have whole : pow2 0 = 1 := rfl
  simp only [significand, hn, if_false, place, shift, unshifted, whole, Nat.mul_one,
    nearestInteger_one]

theorem scaled_shift (n k : Nat) : scaled (n * pow2 k) (-(k : Int)) = n := by
  have positive : (pow2 k : Rat) ≠ 0 := Nat.cast_ne_zero.2 (Nat.two_pow_pos k).ne'
  have shift : (- -(k : Int)).toNat = k := by omega
  unfold scaled
  split
  · obtain rfl : k = 0 := by omega
    have whole : pow2 0 = 1 := rfl
    simp [whole]
  · rw [shift, Rat.mkRat_eq_div, Int.cast_natCast, Nat.cast_mul]
    exact mul_div_cancel_right₀ _ positive

theorem nearest_natCast {n : Nat} (small : n < 2 ^ 53) : nearest n = finite n := by
  by_cases hn : n = 0
  · subst hn
    decide +kernel
  have bound : ¬ ((pow2 1024 : Nat) : Rat) ≤ n := by
    have large : 2 ^ 53 < pow2 1024 := by decide +kernel
    rw [Nat.cast_le, Nat.not_le]
    exact small.trans large
  have positive : (n : Rat) ≠ 0 := Nat.cast_ne_zero.2 hn
  have unsigned : ¬ (n : Rat) < 0 := not_lt.2 (Nat.cast_nonneg n)
  have numerator : (n : Rat).num.natAbs = n := rfl
  have denominator : (n : Rat).den = 1 := rfl
  unfold nearest
  rw [numerator, denominator, significand_natCast hn small]
  dsimp only
  rw [scaled_shift, if_neg bound]
  simp [signed, positive, unsigned]

theorem nearest_natCast_of_le {n : Nat} (small : n ≤ 2 ^ 53) : nearest n = finite n := by
  rcases Nat.lt_or_eq_of_le small with below | rfl
  · exact nearest_natCast below
  · decide +kernel

def counted (n : Nat) : Number := finite (min n (2 ^ 53) : Nat)

theorem add_one_natCast (n : Nat) : (finite n).add 1 = nearest (n + 1 : Nat) := by
  rw [Nat.cast_add, Nat.cast_one]
  rfl

theorem counted_add_one (n : Nat) : (counted n).add 1 = counted (n + 1) := by
  unfold counted
  rw [add_one_natCast]
  rcases Nat.lt_trichotomy (n + 1) (2 ^ 53) with below | last | beyond
  · have here : min n (2 ^ 53) = n := by omega
    have next : min (n + 1) (2 ^ 53) = n + 1 := by omega
    rw [here, next, nearest_natCast below]
  · have here : min n (2 ^ 53) = 2 ^ 53 - 1 := by omega
    have next : min (n + 1) (2 ^ 53) = 2 ^ 53 := by omega
    rw [here, next]
    decide +kernel
  · -- the sum lies halfway between two numbers and goes back to the even one
    have here : min n (2 ^ 53) = 2 ^ 53 := by omega
    have next : min (n + 1) (2 ^ 53) = 2 ^ 53 := by omega
    rw [here, next]
    decide +kernel

end VisaEligibility.Number
