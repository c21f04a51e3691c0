import VisaEligibility.Text.Units
/-!
The order of texts by their code units is total: it compares the units of two texts from the front,
and texts with the same units are the same. That it stops at a character and not at a unit makes no
difference.
-/
set_option autoImplicit false

namespace VisaEligibility.Text

open unitOrder (compareUnits)

theorem unitsOf_injective {c d : Char} (h : unitsOf c = unitsOf d) : c = d := by
  have bound : c.toNat.isValidChar := c.valid
  have bound' : d.toNat.isValidChar := d.valid
  unfold Nat.isValidChar at bound bound'
  have same : c.toNat = d.toNat := by
    unfold unitsOf at h
    split at h <;> split at h
    · have := congrArg UInt16.toNat (List.cons.inj h).1
      simp at this
      omega
    · cases (List.cons.inj h).2
    · cases (List.cons.inj h).2
    · obtain ⟨high, low⟩ := List.cons.inj h
      have high := congrArg UInt16.toNat high
      have low := congrArg UInt16.toNat (List.cons.inj low).1
      simp at high low
      omega
  exact Char.toNat_inj.1 same

def unitNumbers (c : Char) : List Nat := (unitsOf c).map UInt16.toNat

theorem unitNumbers_injective {c d : Char} (h : unitNumbers c = unitNumbers d) : c = d :=
  unitsOf_injective ((List.map_inj_right fun _ _ => UInt16.toNat_inj.1).1 h)

theorem then_compare {α β : Type} [DecidableEq α] [Ord β] [Std.LawfulEqOrd β] {key : α → β}
    (injective : ∀ a b, key a = key b → a = b) (a b : α) (o : Ordering) :
    (compare (key a) (key b)).then o = if a = b then o else compare (key a) (key b) := by
  by_cases same : a = b
  · rw [if_pos same, same, Std.compare_self]
    rfl
  · rw [if_neg same]
    cases he : compare (key a) (key b) with
    | eq => exact absurd (injective a b (Std.LawfulEqOrd.eq_of_compare he)) same
    | lt => rfl
    | gt => rfl

theorem compareUnits_eq (us vs : List UInt16) :
    compareUnits us vs = compare (us.map UInt16.toNat) (vs.map UInt16.toNat) := by
  induction us generalizing vs with
  | nil => cases vs <;> rfl
  | cons u us ih =>
    cases vs with
    | nil => rfl
    | cons v vs =>
      rw [compareUnits, ih, ← then_compare (fun _ _ => UInt16.toNat_inj.1)]
      exact List.compareLex_cons_cons.symm

theorem compareLex_eq (cs ds : List Char) :
    unitOrder.compareLex cs ds = compare (cs.map unitNumbers) (ds.map unitNumbers) := by
  induction cs generalizing ds with
  | nil => cases ds <;> rfl
  | cons c cs ih =>
    cases ds with
    | nil => rfl
    | cons d ds =>
      rw [unitOrder.compareLex, ih, compareUnits_eq]
      refine Eq.trans ?_ List.compareLex_cons_cons.symm
      exact (then_compare (fun _ _ => unitNumbers_injective) c d _).symm

theorem unitOrder_eq (s t : String) :
    unitOrder s t = compare (s.toList.map unitNumbers) (t.toList.map unitNumbers) :=
  compareLex_eq _ _

instance : Std.TransCmp unitOrder where
  eq_swap := by
    intro s t
    rw [unitOrder_eq, unitOrder_eq]
    exact Std.OrientedOrd.eq_swap
  isLE_trans := by
    intro s t u
    rw [unitOrder_eq, unitOrder_eq, unitOrder_eq]
    exact Std.TransOrd.isLE_trans

instance : Std.LawfulEqCmp unitOrder where
  compare_self := by
    intro s
    rw [unitOrder_eq, Std.compare_self]
  eq_of_compare := by
    intro s t he
    rw [unitOrder_eq] at he
    have same := Std.LawfulEqOrd.eq_of_compare he
    exact String.toList_inj.1 ((List.map_inj_right fun _ _ => unitNumbers_injective).1 same)

def codeUnits (s : String) : List Nat := (Units.ofString s).units.map UInt16.toNat

theorem codeUnits_eq (s : String) : codeUnits s = s.toList.flatMap unitNumbers :=
  List.map_flatMap

theorem eq_of_unitNumbers_isPrefix {c d : Char} (h : unitNumbers c <+: unitNumbers d) : c = d := by
  have bound : c.toNat.isValidChar := c.valid
  unfold Nat.isValidChar at bound
  by_cases same : (unitNumbers c).length = (unitNumbers d).length
  · exact unitNumbers_injective (h.eq_of_length same)
  · exfalso
    unfold unitNumbers unitsOf at h same
    split at h <;> split at h
    · rename_i single single'
      simp [single, single'] at same
    · obtain ⟨rest, listed⟩ := h
      have first := (List.cons.inj listed).1
      have bound' : d.toNat.isValidChar := d.valid
      unfold Nat.isValidChar at bound'
      simp at first
      omega
    · have shorter := h.length_le
      simp at shorter
    · rename_i pair pair'
      simp [pair, pair'] at same

theorem compare_append_left (us xs ys : List Nat) :
    compare (us ++ xs) (us ++ ys) = compare xs ys := by
  induction us with
  | nil => rfl
  | cons u us ih =>
    rw [List.cons_append, List.cons_append, ← ih]
    refine List.compareLex_cons_cons.trans ?_
    rw [Std.compare_self]
    rfl

theorem compare_append {us vs : List Nat} (xs ys : List Nat) (h : ¬us <+: vs) (h' : ¬vs <+: us) :
    compare (us ++ xs) (vs ++ ys) = compare us vs := by
  induction us generalizing vs with
  | nil => exact absurd List.nil_prefix h
  | cons u us ih =>
    cases vs with
    | nil => exact absurd List.nil_prefix h'
    | cons v vs =>
      refine List.compareLex_cons_cons.trans (Eq.trans ?_ List.compareLex_cons_cons.symm)
      cases order : compare u v with
      | lt => rfl
      | gt => rfl
      | eq =>
        obtain rfl := Std.LawfulEqOrd.eq_of_compare order
        simp only [List.cons_prefix_cons, true_and] at h h'
        exact ih h h'

theorem compare_flatMap_unitNumbers (cs ds : List Char) :
    compare (cs.flatMap unitNumbers) (ds.flatMap unitNumbers) =
      compare (cs.map unitNumbers) (ds.map unitNumbers) := by
  have some (c : Char) : unitNumbers c ≠ [] := by
    unfold unitNumbers unitsOf
    split <;> simp
  induction cs generalizing ds with
  | nil =>
    cases ds with
    | nil => rfl
    | cons d ds =>
      obtain ⟨u, us, units⟩ := List.exists_cons_of_ne_nil (some d)
      rw [List.flatMap_cons, units]
      rfl
  | cons c cs ih =>
    cases ds with
    | nil =>
      obtain ⟨u, us, units⟩ := List.exists_cons_of_ne_nil (some c)
      rw [List.flatMap_cons, units]
      rfl
    | cons d ds =>
      rw [List.flatMap_cons, List.flatMap_cons]
      refine Eq.trans ?_ List.compareLex_cons_cons.symm
      refine Eq.trans ?_ (then_compare (fun _ _ => unitNumbers_injective) c d _).symm
      by_cases same : c = d
      · rw [if_pos same, same, compare_append_left, ih]
        rfl
      · rw [if_neg same]
        exact compare_append _ _ (mt eq_of_unitNumbers_isPrefix same)
          (mt eq_of_unitNumbers_isPrefix (Ne.symm same))

theorem compare_eq_lt_iff (us vs : List Nat) : compare us vs = .lt ↔ us < vs := by
  induction us generalizing vs with
  | nil =>
    cases vs with
    | nil => exact iff_of_false nofun (List.not_lt_nil _)
    | cons v vs => exact iff_of_true rfl (List.nil_lt_cons v vs)
  | cons u us ih =>
    cases vs with
    | nil => exact iff_of_false nofun (List.not_lt_nil _)
    | cons v vs =>
      have first : compare (u :: us) (v :: vs) = (compare u v).then (compare us vs) :=
        List.compareLex_cons_cons
      rw [first, Ordering.then_eq_lt, Nat.compare_eq_lt, Nat.compare_eq_eq, ih,
        List.cons_lt_cons_iff]

/-- The order of two texts is that of their code units, one after the other. -/
theorem unitOrder_eq_lt_iff (s t : String) : unitOrder s t = .lt ↔ codeUnits s < codeUnits t := by
  rw [unitOrder_eq, ← compare_flatMap_unitNumbers, ← codeUnits_eq, ← codeUnits_eq,
    compare_eq_lt_iff]

/-- A character outside the basic plane comes before the last ones in the plane. -/
example : unitOrder "𝄞" "～" = .lt := by decide

end VisaEligibility.Text
