import VisaEligibility.Proofs.Text.Surrogates
/-!
Text cut at a number of code units. A text made of characters has paired surrogates and is read back
from its units; a cut leaves it so exactly if it does not stand after a high surrogate.
-/
set_option autoImplicit false

namespace VisaEligibility.Text.Units

theorem unitsOf_cases (c : Char) :
    (∃ u, unitsOf c = [u] ∧ isHigh u = false ∧ isLow u = false ∧ Char.ofNat u.toNat = c) ∨
    ∃ h l, unitsOf c = [h, l] ∧ isHigh h = true ∧ isLow l = true ∧ pair h l = c := by
  have valid : c.toNat.isValidChar := c.valid
  unfold Nat.isValidChar at valid
  by_cases small : c.toNat < 0x10000
  · refine .inl ⟨c.toNat.toUInt16, by rw [unitsOf, if_pos small], ?_⟩
    have same : c.toNat.toUInt16.toNat = c.toNat := by
      rw [Nat.toUInt16, UInt16.toNat_ofNat']
      exact Nat.mod_eq_of_lt small
    simp only [isHigh, isLow, same, Bool.and_eq_false_iff, decide_eq_false_iff_not]
    exact ⟨by omega, by omega, Char.ofNat_toNat c⟩
  · refine .inr ⟨(0xD800 + (c.toNat - 0x10000) / 0x400).toUInt16,
      (0xDC00 + (c.toNat - 0x10000) % 0x400).toUInt16, by rw [unitsOf, if_neg small], ?_⟩
    have high : (0xD800 + (c.toNat - 0x10000) / 0x400).toUInt16.toNat =
        0xD800 + (c.toNat - 0x10000) / 0x400 := by
      rw [Nat.toUInt16, UInt16.toNat_ofNat']
      exact Nat.mod_eq_of_lt (by omega)
    have low : (0xDC00 + (c.toNat - 0x10000) % 0x400).toUInt16.toNat =
        0xDC00 + (c.toNat - 0x10000) % 0x400 := by
      rw [Nat.toUInt16, UInt16.toNat_ofNat']
      exact Nat.mod_eq_of_lt (by omega)
    have whole : 0x10000 + (0xD800 + (c.toNat - 0x10000) / 0x400 - 0xD800) * 0x400 +
        (0xDC00 + (c.toNat - 0x10000) % 0x400 - 0xDC00) = c.toNat := by omega
    simp only [isHigh, isLow, pair, high, low, Bool.and_eq_true, decide_eq_true_eq, whole]
    exact ⟨by omega, by omega, Char.ofNat_toNat c⟩

theorem isHigh_of_isLow {u : UInt16} (low : isLow u = true) : isHigh u = false := by
  simp only [isHigh, isLow, Bool.and_eq_true, Bool.and_eq_false_iff, decide_eq_true_eq,
    decide_eq_false_iff_not] at low ⊢
  omega

theorem decode_flatMap (cs : List Char) : decode (cs.flatMap unitsOf) = cs := by
  induction cs with
  | nil => rfl
  | cons c cs ih =>
    rw [List.flatMap_cons]
    rcases unitsOf_cases c with ⟨u, hu, high, low, read⟩ | ⟨h, l, hu, high, low, read⟩
    · have alone : decode (u :: cs.flatMap unitsOf) = c :: decode (cs.flatMap unitsOf) := by
        cases cs.flatMap unitsOf <;> simp [decode, high, low, read]
      rw [hu, List.singleton_append, alone, ih]
    · rw [hu, List.cons_append, List.singleton_append, decode, if_pos (by rw [high, low]; rfl),
        read, ih]

theorem ofList_injective {cs ds : List Char} (h : ofList cs = ofList ds) : cs = ds := by
  have same := congrArg decode (congrArg Units.units h)
  rwa [ofList, ofList, decode_flatMap, decode_flatMap] at same

theorem length_append (u v : Units) : (u ++ v).length = u.length + v.length := List.length_append

theorem length_take (n : Nat) (u : Units) : (u.take n).length = min n u.length := List.length_take

theorem wellFormedUnits_cons {u : UInt16} (high : isHigh u = false) (us : List UInt16) :
    wellFormedUnits (u :: us) = (!isLow u && wellFormedUnits us) := by
  cases us <;> simp [wellFormedUnits, high]

theorem wellFormedUnits_pair {h : UInt16} (high : isHigh h = true) (l : UInt16)
    (us : List UInt16) : wellFormedUnits (h :: l :: us) = (isLow l && wellFormedUnits us) := by
  simp [wellFormedUnits, high]

theorem wellFormedUnits_append {us : List UInt16} (h : wellFormedUnits us = true)
    (vs : List UInt16) : wellFormedUnits (us ++ vs) = wellFormedUnits vs := by
  fun_induction wellFormedUnits us with
  | case1 => rfl
  | case2 u high => cases h
  | case3 u high v us ih =>
    obtain ⟨low, rest⟩ := Bool.and_eq_true_iff.1 h
    rw [List.cons_append, List.cons_append, wellFormedUnits_pair high, low, ih rest,
      Bool.true_and]
  | case4 u us high ih =>
    obtain ⟨low, rest⟩ := Bool.and_eq_true_iff.1 h
    have high : isHigh u = false := by simpa using high
    rw [List.cons_append, wellFormedUnits_cons high, low, ih rest, Bool.true_and]

theorem wellFormedUnits_append_cons {v : UInt16} (high : isHigh v = false) (low : isLow v = false)
    (us vs : List UInt16) :
    wellFormedUnits (us ++ v :: vs) = (wellFormedUnits us && wellFormedUnits vs) := by
  fun_induction wellFormedUnits us with
  | case1 => rw [List.nil_append, wellFormedUnits_cons high, low, Bool.not_false]
  | case2 u high =>
    rw [List.singleton_append, wellFormedUnits_pair high, low, Bool.false_and]
  | case3 u high v us ih =>
    rw [List.cons_append, List.cons_append, wellFormedUnits_pair high, ih, Bool.and_assoc]
  | case4 u us high ih =>
    have high : isHigh u = false := by simpa using high
    rw [List.cons_append, wellFormedUnits_cons high, ih, Bool.and_assoc]

theorem wellFormed_ofList (cs : List Char) : (ofList cs).wellFormed = true := by
  unfold wellFormed ofList
  induction cs with
  | nil => rfl
  | cons c cs ih =>
    have own : wellFormedUnits (unitsOf c) = true := by
      rcases unitsOf_cases c with ⟨u, hu, high, low, -⟩ | ⟨h, l, hu, high, low, -⟩
      · rw [hu, wellFormedUnits_cons high, low]
        rfl
      · rw [hu, wellFormedUnits_pair high, low]
        rfl
    rw [List.flatMap_cons, wellFormedUnits_append own, ih]

theorem wellFormed_ofString (s : String) : (ofString s).wellFormed = true :=
  wellFormed_ofList s.toList

theorem wellFormed_append_ofString {s : String} {c : Char} {cs : List Char} (u : Units)
    (starts : s.toList = c :: cs) (small : c.toNat < 0xD800) :
    (u ++ ofString s).wellFormed = u.wellFormed := by
  rcases unitsOf_cases c with ⟨v, hv, high, low, -⟩ | ⟨h, l, hv, -⟩
  · have units : (u ++ ofString s).units = u.units ++ v :: cs.flatMap unitsOf := by
      show u.units ++ s.toList.flatMap unitsOf = _
      rw [starts, List.flatMap_cons, hv, List.singleton_append]
    have rest : wellFormedUnits (cs.flatMap unitsOf) = true := wellFormed_ofList cs
    rw [wellFormed, units, wellFormedUnits_append_cons high low, rest, Bool.and_true]
    rfl
  · rw [unitsOf, if_pos (by omega)] at hv
    simp at hv

/-- A cut breaks a text exactly if it stands after a high surrogate. -/
theorem wellFormedUnits_take {us : List UInt16} (h : wellFormedUnits us = true) (n : Nat) :
    wellFormedUnits (us.take n) = !(us.take n).getLast?.any isHigh := by
  fun_induction wellFormedUnits us generalizing n with
  | case1 => rw [List.take_nil]; rfl
  | case2 u high => cases h
  | case3 u high v us ih =>
    obtain ⟨low, rest⟩ := Bool.and_eq_true_iff.1 h
    rcases n with _ | _ | n
    · rfl
    · simp [wellFormedUnits, high]
    · rw [List.take_succ_cons, List.take_succ_cons, wellFormedUnits_pair high, low, ih rest,
        Bool.true_and]
      cases us.take n with
      | nil => simp [isHigh_of_isLow low]
      | cons w ws => simp
  | case4 u us high ih =>
    obtain ⟨low, rest⟩ := Bool.and_eq_true_iff.1 h
    have high : isHigh u = false := by simpa using high
    cases n with
    | zero => rfl
    | succ n =>
      rw [List.take_succ_cons, wellFormedUnits_cons high, low, ih rest, Bool.true_and]
      cases us.take n with
      | nil => simp [high]
      | cons w ws => simp

end VisaEligibility.Text.Units

namespace VisaEligibility.Text

theorem unitLength_of_basic {s : String} (h : ∀ c ∈ s.toList, c.toNat < 0x10000) :
    unitLength s = s.length := by
  have single : ∀ c ∈ s.toList, (unitsOf c).length = 1 := fun c hc => by
    rw [unitsOf, if_pos (h c hc)]
    rfl
  rw [unitLength, Units.ofString, Units.ofList, Units.length, List.length_flatMap,
    List.map_congr_left single, List.map_const', List.sum_replicate_nat, Nat.mul_one,
    String.length_toList]

end VisaEligibility.Text
