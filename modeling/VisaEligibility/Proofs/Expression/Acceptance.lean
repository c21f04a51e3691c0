import Mathlib.Data.List.Perm.Subperm
import VisaEligibility.Proofs.Expression.Spelling
/-!
Which raw trees are accepted as expressions: those that spell a well-formed expression within the
limits of depth and size. What is accepted is accepted again as its own raw tree.
-/
set_option autoImplicit false

namespace VisaEligibility.Expression

open Value

variable {raw : Value} {es : List Expression} {vs : List Value} {n : Nat}

theorem exists_read_of_mem (each : List.Forall₂ (fun v e => read v = .ok e) vs es)
    {e : Expression} (he : e ∈ es) : ∃ v, read v = .ok e := by
  induction each with
  | nil => cases he
  | cons first _ ih =>
    cases he with
    | head => exact ⟨_, first⟩
    | tail _ later => exact ih later

theorem isWellFormed_of_read (e : Expression) {raw : Value} (h : read raw = .ok e) :
    e.IsWellFormed := by
  induction e using induct generalizing raw with
  | var n t =>
    cases read_eq_ok.1 h with
    | var op name named type => simpa [IsWellFormed, IsSound] using named
  | literal v =>
    cases read_eq_ok.1 h with
    | literal op value storable => simpa [IsWellFormed, IsSound] using storable
  | compare c l r ihl ihr =>
    cases read_eq_ok.1 h with
    | compare op operator left right => exact isWellFormed_compare.2 ⟨ihl left, ihr right⟩
  | and es ih =>
    cases read_eq_ok.1 h with
    | and op operands some each =>
      exact isWellFormed_and.2
        ⟨some, fun e he => (exists_read_of_mem each he).elim fun _ => ih e he⟩
  | or es ih =>
    cases read_eq_ok.1 h with
    | or op operands some each =>
      exact isWellFormed_or.2
        ⟨some, fun e he => (exists_read_of_mem each he).elim fun _ => ih e he⟩
  | not e ih =>
    cases read_eq_ok.1 h with
    | not op operand => exact isWellFormed_not.2 (ih operand)
  | member e os ih =>
    cases read_eq_ok.1 h with
    | member op value options storable =>
      exact isWellFormed_member.2 ⟨storable, ih value⟩

theorem field_cons_of_ne {k key : String} (h : k ≠ key) (v : Value)
    (fields : List (String × Value)) :
    (Value.record ((k, v) :: fields)).field key = (Value.record fields).field key := by
  simp [Value.field, Entries.get?, h]

theorem subperm_fieldLevels (n : Nat) (fields : List (String × Value)) {keys : List String}
    (distinct : keys.Nodup) :
    (keys.flatMap fun k => ((Value.record fields).field k).levels n).Subperm
      (fieldLevels n fields) := by
  induction fields generalizing keys with
  | nil => simp [Value.field, Value.levels, fieldLevels]
  | cons f fields ih =>
    obtain ⟨k, v⟩ := f
    have others (keys : List String) (absent : k ∉ keys) :
        (keys.flatMap fun key => ((Value.record ((k, v) :: fields)).field key).levels n) =
          keys.flatMap fun key => ((Value.record fields).field key).levels n := by
      apply List.flatMap_congr
      intro key present
      have ne : k ≠ key := by
        rintro rfl
        exact absent present
      rw [field_cons_of_ne ne]
    by_cases present : k ∈ keys
    · have own : (Value.record ((k, v) :: fields)).field k = v := by
        simp [Value.field, Entries.get?]
      have split := (List.perm_cons_erase present).flatMap_right
        fun key => ((Value.record ((k, v) :: fields)).field key).levels n
      rw [List.flatMap_cons, own, others _ distinct.not_mem_erase] at split
      rw [fieldLevels]
      exact split.subperm.trans ((List.Subperm.refl _).append (ih (distinct.erase k)))
    · rw [others keys present, fieldLevels]
      exact (ih distinct).trans (List.sublist_append_right _ _).subperm

theorem subperm_levels {op : String} (h : raw.field "op" = .text op) (n : Nat) {keys : List String}
    (distinct : keys.Nodup) :
    (n :: keys.flatMap fun k => (raw.field k).levels (n + 1)).Subperm (raw.levels n) := by
  cases raw with
  | record fields =>
    rw [Value.levels]
    exact (List.subperm_cons n).2 (subperm_fieldLevels (n + 1) fields distinct)
  | _ => cases h

theorem operands_subperm (each : List.Forall₂ (fun v e => read v = .ok e) vs es)
    (h : ∀ e ∈ es, ∀ v, read v = .ok e → (e.toValue.levels n).Subperm (v.levels n)) :
    (es.flatMap fun e => e.toValue.levels n).Subperm (itemLevels n vs) := by
  induction each with
  | nil => exact List.Subperm.refl _
  | cons here rest ih =>
    obtain ⟨first, others⟩ := List.forall_mem_cons.1 h
    rw [List.flatMap_cons, itemLevels]
    exact (first _ here).append (ih others)

theorem levels_operands_subperm {op : String} (h : raw.field "op" = .text op)
    (operands : raw.field "operands" = .list vs)
    (held : (es.flatMap fun e => e.toValue.levels (n + 1)).Subperm (itemLevels (n + 1) vs)) :
    (n :: (n + 1) :: es.flatMap fun e => e.toValue.levels (n + 1)).Subperm (raw.levels n) := by
  have fields := subperm_levels h n (List.nodup_singleton "operands")
  rw [List.flatMap_singleton, operands, Value.levels] at fields
  exact ((List.subperm_cons n).2 ((List.subperm_cons _).2 held)).trans fields

/-- The lists and records of the expression read are among those of the raw tree: reading only
drops fields. -/
theorem levels_subperm (e : Expression) {raw : Value} (h : read raw = .ok e) (n : Nat) :
    (e.toValue.levels n).Subperm (raw.levels n) := by
  induction e using induct generalizing raw n with
  | var m t =>
    cases read_eq_ok.1 h with
    | var op name named type => simpa using subperm_levels op n List.nodup_nil
  | literal v =>
    cases read_eq_ok.1 h with
    | literal op value storable => simpa using subperm_levels op n List.nodup_nil
  | compare c l r ihl ihr =>
    cases read_eq_ok.1 h with
    | compare op operator left right =>
      have fields : ["left", "right"].Nodup := by decide
      rw [levels_compare]
      exact ((List.subperm_cons n).2 ((ihl left _).append (ihr right _))).trans
        (by simpa using subperm_levels op n fields)
  | and es ih =>
    cases read_eq_ok.1 h with
    | and op operands some each =>
      rw [levels_and]
      exact levels_operands_subperm op operands
        (operands_subperm each fun e he v hv => ih e he hv (n + 1))
  | or es ih =>
    cases read_eq_ok.1 h with
    | or op operands some each =>
      rw [levels_or]
      exact levels_operands_subperm op operands
        (operands_subperm each fun e he v hv => ih e he hv (n + 1))
  | not e ih =>
    cases read_eq_ok.1 h with
    | not op operand =>
      have fields := subperm_levels op n (List.nodup_singleton "operand")
      rw [List.flatMap_singleton] at fields
      rw [levels_not]
      exact ((List.subperm_cons n).2 (ih operand _)).trans fields
  | member e os ih =>
    cases read_eq_ok.1 h with
    | member op value options storable =>
      have distinct : ["value", "options"].Nodup := by decide
      have fields := subperm_levels op n distinct
      rw [List.flatMap_cons, List.flatMap_singleton, options, Value.levels,
        itemLevels_scalars] at fields
      rw [levels_member]
      exact ((List.subperm_cons n).2 ((ih value _).append (List.Subperm.refl _))).trans fields

theorem ofValue_eq_ok {e : Expression} : ofValue raw = .ok e ↔
    ((∀ k ∈ raw.levels 1, k ≤ 20) ∧ (raw.levels 1).length ≤ 1000) ∧ read raw = .ok e := by
  have limits : (Measure.ofValue raw).excess = none ↔
      (∀ k ∈ raw.levels 1, k ≤ 20) ∧ (raw.levels 1).length ≤ 1000 :=
    Measure.excess_ofValue_eq_none_iff (.inl (by decide))
  rw [← limits, ofValue]
  cases (Measure.ofValue raw).excess with
  | none => rw [mapError_eq_ok, and_iff_right rfl]
  | some excess => simp

theorem ofValue_toValue_eq_ok {e x : Expression} (h : e.IsWellFormed) :
    ofValue e.toValue = .ok x ↔ (e.nesting ≤ 20 ∧ e.size ≤ 1000) ∧ x = e := by
  rw [ofValue_eq_ok, levels_le_iff e h, length_levels, read_toValue e h, Except.ok.injEq,
    eq_comm (a := e)]
  refine and_congr_left fun _ => and_congr_left fun _ => ?_
  omega

/-- Exactly the well-formed expressions of at most twenty levels whose operators and lists are at
most a thousand are accepted, each as itself; and whatever raw tree is accepted, what it is read as
is one of these, so what reading dropped is not missed when the result is read again. -/
theorem accepts_exactly_bounded_trees :
    (∀ e : Expression, e.IsWellFormed →
      ((∃ x, ofValue e.toValue = .ok x) ↔ e.nesting ≤ 20 ∧ e.size ≤ 1000) ∧
      ∀ x, ofValue e.toValue = .ok x → x = e) ∧
    ∀ (raw : Value) (e : Expression), ofValue raw = .ok e →
      e.IsWellFormed ∧ e.nesting ≤ 20 ∧ e.size ≤ 1000 ∧ ofValue e.toValue = .ok e := by
  constructor
  · intro e h
    simp only [ofValue_toValue_eq_ok h]
    exact ⟨⟨fun ⟨_, bounded, _⟩ => bounded, fun bounded => ⟨e, bounded, rfl⟩⟩, fun _ => And.right⟩
  · intro raw e h
    obtain ⟨⟨shallow, few⟩, spelled⟩ := ofValue_eq_ok.1 h
    have formed := isWellFormed_of_read e spelled
    have among := levels_subperm e spelled 1
    have nesting : e.nesting ≤ 20 := by
      have := (levels_le_iff e formed 1 20).1 fun k hk => shallow k (among.subset hk)
      omega
    have size : e.size ≤ 1000 := by
      rw [← length_levels e 1]
      exact among.length_le.trans few
    exact ⟨formed, nesting, size, (ofValue_toValue_eq_ok formed).2 ⟨⟨nesting, size⟩, rfl⟩⟩

def negated : Nat → Expression
  | 0 => literal (.bool true)
  | n + 1 => not (negated n)

theorem isWellFormed_negated (n : Nat) : (negated n).IsWellFormed := by
  induction n with
  | zero => simp [negated, IsWellFormed, IsSound, Scalar.isStorable]
  | succ n ih => exact isWellFormed_not.2 ih

theorem read_noted_truth :
    ofValue (.record [("op", .text "literal"), ("note", .list []), ("value", .bool true)]) =
      .ok (negated 0) := by
  refine ofValue_eq_ok.2 ⟨by decide, read_eq_ok.2 ?_⟩
  exact .literal (v := .bool true) rfl rfl rfl

theorem accepts_nineteen_negations :
    ((negated 19).IsWellFormed ∧ ∃ x, ofValue (negated 19).toValue = .ok x) ∧
    ((negated 20).IsWellFormed ∧ ¬∃ x, ofValue (negated 20).toValue = .ok x) ∧
    ofValue (.record [("op", .text "literal"), ("note", .list []), ("value", .bool true)]) =
      .ok (negated 0) ∧ ofValue (negated 0).toValue = .ok (negated 0) := by
  have accepted := accepts_exactly_bounded_trees.1 (negated 19) (isWellFormed_negated 19)
  have refused := accepts_exactly_bounded_trees.1 (negated 20) (isWellFormed_negated 20)
  have again := accepts_exactly_bounded_trees.2 _ _ read_noted_truth
  refine ⟨⟨isWellFormed_negated 19, accepted.1.2 (by decide)⟩,
    ⟨isWellFormed_negated 20, fun success => ?_⟩, read_noted_truth, again.2.2.2⟩
  exact absurd (refused.1.1 success).1 (by decide)

end VisaEligibility.Expression
