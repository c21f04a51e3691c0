import VisaEligibility.Proofs.Expression.Coincidence
import VisaEligibility.Proofs.Expression.Measuring
/-!
The extent of an expression: how many lists and records its raw tree has and how deep they lie.
-/
set_option autoImplicit false

namespace VisaEligibility

theorem Scalar.levels_toValue (level : Nat) (s : Scalar) : s.toValue.levels level = [] := by
  cases s <;> rfl

namespace Value

theorem itemLevels_scalars (level : Nat) (ss : List Scalar) :
    itemLevels level (ss.map Scalar.toValue) = [] := by
  simp [itemLevels_eq_flatMap, List.flatMap_map, Scalar.levels_toValue]

end Value

namespace Expression

mutual

@[simp] def nodes : Expression → List Expression
  | var n t => [var n t]
  | literal v => [literal v]
  | compare c l r => compare c l r :: (l.nodes ++ r.nodes)
  | and es => and es :: nodesOf es
  | or es => or es :: nodesOf es
  | not e => not e :: e.nodes
  | member e os => member e os :: e.nodes

@[simp] def nodesOf : List Expression → List Expression
  | [] => []
  | e :: es => e.nodes ++ nodesOf es

end

mutual

@[simp] def nesting : Expression → Nat
  | var _ _ => 1
  | literal _ => 1
  | compare _ l r => 1 + max l.nesting r.nesting
  | and es => 1 + nestingOf es
  | or es => 1 + nestingOf es
  | not e => 1 + e.nesting
  | member e _ => 1 + e.nesting

@[simp] def nestingOf : List Expression → Nat
  | [] => 0
  | e :: es => max e.nesting (nestingOf es)

end

def hasList : Expression → Bool
  | and _ => true
  | or _ => true
  | member _ _ => true
  | _ => false

def size (e : Expression) : Nat := e.nodes.length + e.nodes.countP hasList

def IsSound : Expression → Prop
  | var n _ => n ≠ ""
  | literal v => v.isStorable = true
  | and es => es ≠ []
  | or es => es ≠ []
  | member _ os => ∀ o ∈ os, o.isStorable = true
  | _ => True

def IsWellFormed (e : Expression) : Prop := ∀ node ∈ e.nodes, node.IsSound

variable {es : List Expression} {c : Comparison} {e l r : Expression} {os : List Scalar} {d n : Nat}

theorem nodesOf_eq_flatMap (es : List Expression) : nodesOf es = es.flatMap nodes := by
  induction es with
  | nil => rfl
  | cons e es ih => rw [nodesOf, ih, List.flatMap_cons]

theorem nestingOf_le_iff : nestingOf es ≤ d ↔ ∀ e ∈ es, e.nesting ≤ d := by
  induction es with
  | nil => simp
  | cons e es ih => rw [nestingOf, Nat.max_le, ih, List.forall_mem_cons]

theorem nesting_pos (e : Expression) : 0 < e.nesting := by
  cases e <;> simp only [nesting] <;> omega

theorem add_nestingOf_le_iff (some : es ≠ []) :
    n + nestingOf es ≤ d ↔ ∀ e ∈ es, n + e.nesting ≤ d := by
  constructor
  · intro bounded e he
    have least : e.nesting ≤ nestingOf es := nestingOf_le_iff.1 (Nat.le_refl _) e he
    omega
  · intro all
    obtain ⟨e, he⟩ := List.exists_mem_of_ne_nil es some
    have one := all e he
    have most : nestingOf es ≤ d - n := nestingOf_le_iff.2 fun e he => by
      have := all e he
      omega
    omega

theorem isWellFormed_compare :
    (compare c l r).IsWellFormed ↔ l.IsWellFormed ∧ r.IsWellFormed := by
  simp [IsWellFormed, IsSound, or_imp, forall_and]

theorem forall_isSound_nodesOf :
    (∀ node ∈ nodesOf es, node.IsSound) ↔ ∀ e ∈ es, e.IsWellFormed := by
  simp only [nodesOf_eq_flatMap, List.mem_flatMap, IsWellFormed]
  constructor
  · exact fun all e he node h => all node ⟨e, he, h⟩
  · exact fun all node ⟨e, he, h⟩ => all e he node h

theorem isWellFormed_and : (and es).IsWellFormed ↔ es ≠ [] ∧ ∀ e ∈ es, e.IsWellFormed := by
  rw [IsWellFormed, nodes, List.forall_mem_cons, forall_isSound_nodesOf]
  rfl

theorem isWellFormed_or : (or es).IsWellFormed ↔ es ≠ [] ∧ ∀ e ∈ es, e.IsWellFormed := by
  rw [IsWellFormed, nodes, List.forall_mem_cons, forall_isSound_nodesOf]
  rfl

theorem isWellFormed_not : (not e).IsWellFormed ↔ e.IsWellFormed := by
  simp [IsWellFormed, IsSound]

theorem isWellFormed_member : (member e os).IsWellFormed ↔
    (∀ o ∈ os, o.isStorable = true) ∧ e.IsWellFormed := by
  simp [IsWellFormed, IsSound]

theorem toValues_eq_map (es : List Expression) : toValues es = es.map toValue := by
  induction es with
  | nil => rfl
  | cons e es ih => rw [toValues, ih, List.map_cons]

theorem itemLevels_toValues (level : Nat) (es : List Expression) :
    Value.itemLevels level (toValues es) = es.flatMap fun e => e.toValue.levels level := by
  rw [Value.itemLevels_eq_flatMap, toValues_eq_map, List.flatMap_map]

@[simp] theorem levels_var (level : Nat) (n : String) (t : Option ScalarKind) :
    (var n t).toValue.levels level = [level] := by
  cases t <;> simp [toValue, Value.levels, Value.fieldLevels]

@[simp] theorem levels_literal (level : Nat) (v : Scalar) :
    (literal v).toValue.levels level = [level] := by
  simp [toValue, Value.levels, Value.fieldLevels, Scalar.levels_toValue]

@[simp] theorem levels_compare (level : Nat) : (compare c l r).toValue.levels level =
    level :: (l.toValue.levels (level + 1) ++ r.toValue.levels (level + 1)) := by
  simp [toValue, Value.levels, Value.fieldLevels]

@[simp] theorem levels_and (level : Nat) : (and es).toValue.levels level =
    level :: (level + 1) :: es.flatMap fun e => e.toValue.levels (level + 1) := by
  simp [toValue, Value.levels, Value.fieldLevels, itemLevels_toValues]

@[simp] theorem levels_or (level : Nat) : (or es).toValue.levels level =
    level :: (level + 1) :: es.flatMap fun e => e.toValue.levels (level + 1) := by
  simp [toValue, Value.levels, Value.fieldLevels, itemLevels_toValues]

@[simp] theorem levels_not (level : Nat) : (not e).toValue.levels level =
    level :: e.toValue.levels (level + 1) := by
  simp [toValue, Value.levels, Value.fieldLevels]

@[simp] theorem levels_member (level : Nat) : (member e os).toValue.levels level =
    level :: (e.toValue.levels (level + 1) ++ [level + 1]) := by
  simp [toValue, Value.levels, Value.fieldLevels, Value.itemLevels_scalars]

theorem length_operands (h : ∀ e ∈ es, (e.toValue.levels n).length = e.size) :
    (es.flatMap fun e => e.toValue.levels n).length =
      (nodesOf es).length + (nodesOf es).countP hasList := by
  induction es with
  | nil => rfl
  | cons e es ih =>
    obtain ⟨he, hes⟩ := List.forall_mem_cons.1 h
    rw [List.flatMap_cons, List.length_append, he, ih hes, size, nodesOf, List.length_append,
      List.countP_append]
    omega

theorem length_levels (e : Expression) (n : Nat) : (e.toValue.levels n).length = e.size := by
  induction e using induct generalizing n with
  | var => simp [size, hasList]
  | literal => simp [size, hasList]
  | compare c l r ihl ihr =>
    rw [levels_compare, List.length_cons, List.length_append, ihl, ihr]
    simp [size, hasList]
    omega
  | and es ih =>
    rw [levels_and, List.length_cons, List.length_cons, length_operands fun e he => ih e he _]
    simp [size, List.countP_cons, hasList]
    omega
  | or es ih =>
    rw [levels_or, List.length_cons, List.length_cons, length_operands fun e he => ih e he _]
    simp [size, List.countP_cons, hasList]
    omega
  | not e ih =>
    rw [levels_not, List.length_cons, ih]
    simp [size, hasList]
    omega
  | member e os ih =>
    rw [levels_member, List.length_cons, List.length_append, ih]
    simp [size, List.countP_cons, hasList]
    omega

theorem operands_le_iff (some : es ≠ [])
    (h : ∀ e ∈ es, (∀ k ∈ e.toValue.levels (n + 1), k ≤ d) ↔ n + 1 + e.nesting ≤ d + 1) :
    (∀ k ∈ n :: (n + 1) :: es.flatMap fun e => e.toValue.levels (n + 1), k ≤ d) ↔
      n + (1 + nestingOf es) ≤ d + 1 := by
  have held : (∀ k ∈ es.flatMap fun e => e.toValue.levels (n + 1), k ≤ d) ↔
      n + 1 + nestingOf es ≤ d + 1 := by
    rw [add_nestingOf_le_iff some]
    simp only [List.mem_flatMap]
    constructor
    · exact fun all e he => (h e he).1 fun k hk => all k ⟨e, he, hk⟩
    · rintro all k ⟨e, he, hk⟩
      exact (h e he).2 (all e he) k hk
  have positive : 0 < nestingOf es := by
    obtain ⟨e, he⟩ := List.exists_mem_of_ne_nil es some
    exact (nesting_pos e).trans_le (nestingOf_le_iff.1 (Nat.le_refl _) e he)
  rw [List.forall_mem_cons, List.forall_mem_cons, held]
  omega

/-- How deep the lists and records of a well-formed expression lie is its nesting: a list lies no
deeper than what it holds or than the expression beside it. -/
theorem levels_le_iff (e : Expression) (h : e.IsWellFormed) (n d : Nat) :
    (∀ k ∈ e.toValue.levels n, k ≤ d) ↔ n + e.nesting ≤ d + 1 := by
  induction e using induct generalizing n with
  | var => simp
  | literal => simp
  | compare c l r ihl ihr =>
    obtain ⟨hl, hr⟩ := isWellFormed_compare.1 h
    have left := nesting_pos l
    rw [levels_compare, List.forall_mem_cons, List.forall_mem_append, ihl hl, ihr hr, nesting]
    omega
  | and es ih =>
    obtain ⟨some, hes⟩ := isWellFormed_and.1 h
    rw [levels_and, operands_le_iff some fun e he => ih e he (hes e he) _, nesting]
  | or es ih =>
    obtain ⟨some, hes⟩ := isWellFormed_or.1 h
    rw [levels_or, operands_le_iff some fun e he => ih e he (hes e he) _, nesting]
  | not e ih =>
    have below := nesting_pos e
    rw [levels_not, List.forall_mem_cons, ih (isWellFormed_not.1 h), nesting]
    omega
  | member e os ih =>
    have below := nesting_pos e
    rw [levels_member, List.forall_mem_cons, List.forall_mem_append,
      ih (isWellFormed_member.1 h).2, List.forall_mem_singleton, nesting]
    omega

end Expression
end VisaEligibility
