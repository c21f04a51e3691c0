import VisaEligibility.Text.Units
/-!
Text in which surrogates pair up is not changed by reading its units as characters.
-/
set_option autoImplicit false

namespace VisaEligibility.Text.Units

theorem toNat_ofNat {n : Nat} (valid : n.isValidChar) : (Char.ofNat n).toNat = n := by
  rw [Char.ofNat, dif_pos valid]
  exact UInt32.toNat_ofNatLT

theorem unitsOf_ofNat {u : UInt16} (high : isHigh u = false) (low : isLow u = false) :
    unitsOf (Char.ofNat u.toNat) = [u] := by
  have bound := u.toNat_lt
  have valid : u.toNat.isValidChar := by
    simp only [isHigh, isLow, Bool.and_eq_false_iff, decide_eq_false_iff_not] at high low
    unfold Nat.isValidChar
    omega
  have same : (Char.ofNat u.toNat).toNat = u.toNat := toNat_ofNat valid
  have small : u.toNat < 0x10000 := bound
  rw [unitsOf, same, if_pos small]
  simp

theorem unitsOf_pair {h l : UInt16} (high : isHigh h = true) (low : isLow l = true) :
    unitsOf (pair h l) = [h, l] := by
  simp only [isHigh, isLow, Bool.and_eq_true, decide_eq_true_eq] at high low
  have valid : (0x10000 + (h.toNat - 0xD800) * 0x400 + (l.toNat - 0xDC00)).isValidChar := by
    unfold Nat.isValidChar
    omega
  have same : (pair h l).toNat = 0x10000 + (h.toNat - 0xD800) * 0x400 + (l.toNat - 0xDC00) :=
    toNat_ofNat valid
  have large : ¬0x10000 + (h.toNat - 0xD800) * 0x400 + (l.toNat - 0xDC00) < 0x10000 := by omega
  rw [unitsOf, same, if_neg large]
  have first : 0xD800 + (0x10000 + (h.toNat - 0xD800) * 0x400 + (l.toNat - 0xDC00) - 0x10000) /
      0x400 = h.toNat := by
    omega
  have second : 0xDC00 + (0x10000 + (h.toNat - 0xD800) * 0x400 + (l.toNat - 0xDC00) - 0x10000) %
      0x400 = l.toNat := by
    omega
  dsimp only
  rw [first, second]
  simp

theorem flatMap_decode (us : List UInt16) (h : wellFormedUnits us = true) :
    (decode us).flatMap unitsOf = us := by
  fun_induction wellFormedUnits us with
  | case1 => rfl
  | case2 u high => cases h
  | case3 u high v vs ih =>
    obtain ⟨low, rest⟩ := Bool.and_eq_true_iff.1 h
    have paired : decode (u :: v :: vs) = pair u v :: decode vs := by
      rw [decode, if_pos (by rw [high, low]; rfl)]
    rw [paired, List.flatMap_cons, unitsOf_pair high low, ih rest]
    rfl
  | case4 u us high ih =>
    obtain ⟨low, rest⟩ := Bool.and_eq_true_iff.1 h
    have high : isHigh u = false := by simpa using high
    have low : isLow u = false := by simpa using low
    have alone : decode (u :: us) = Char.ofNat u.toNat :: decode us := by
      cases us <;> simp [decode, high, low]
    rw [alone, List.flatMap_cons, unitsOf_ofNat high low, ih rest]
    rfl

theorem ofString_toString {u : Units} (h : u.wellFormed = true) : ofString u.toString = u := by
  have read : ofString u.toString = ⟨(decode u.units).flatMap unitsOf⟩ := by
    rw [ofString, toString, String.toList_ofList]
    rfl
  rw [read, flatMap_decode u.units h]

end VisaEligibility.Text.Units
