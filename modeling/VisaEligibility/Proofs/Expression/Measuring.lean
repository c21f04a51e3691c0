import VisaEligibility.Expression.Measure
import VisaEligibility.Proofs.Number.Order
/-!
What measuring a raw tree finds out. Measuring is one pass over the levels of the lists and records
of the tree in the order they are met, each at most one below a level met before, and it ends
without an excess exactly when no level and not their number is past its limit.
-/
set_option autoImplicit false

namespace VisaEligibility

namespace Value

mutual

/-- The levels of the lists and records of a value, in the order they are met: the children of a
record lie one level deeper, those of a list on its own level. -/
def levels (level : Nat) : Value → List Nat
  | .list vs => level :: itemLevels level vs
  | .record fs => level :: fieldLevels (level + 1) fs
  | _ => []

def itemLevels (level : Nat) : List Value → List Nat
  | [] => []
  | v :: vs => levels level v ++ itemLevels level vs

def fieldLevels (level : Nat) : List (String × Value) → List Nat
  | [] => []
  | (_, v) :: fs => levels level v ++ fieldLevels level fs

end

theorem itemLevels_eq_flatMap (level : Nat) (vs : List Value) :
    itemLevels level vs = vs.flatMap (levels level) := by
  induction vs with
  | nil => rfl
  | cons v vs ih => rw [itemLevels, ih, List.flatMap_cons]

/-- Levels that deepen by one at a time: each is at most one below a level met before. -/
def Descends (met : List Nat) : List Nat → Prop
  | [] => True
  | level :: levels => (∃ l ∈ met, level ≤ l + 1) ∧ Descends (level :: met) levels

theorem Descends.mono {met met' levels : List Nat} (h : Descends met levels)
    (more : ∀ l ∈ met, l ∈ met') : Descends met' levels := by
  induction levels generalizing met met' with
  | nil => trivial
  | cons level levels ih =>
    obtain ⟨⟨l, hl, near⟩, rest⟩ := h
    refine ⟨⟨l, more l hl, near⟩, ih rest fun k hk => ?_⟩
    rcases List.mem_cons.1 hk with rfl | hk
    · exact List.mem_cons_self
    · exact List.mem_cons_of_mem _ (more k hk)

theorem descends_append {met levels levels' : List Nat} : Descends met (levels ++ levels') ↔
    Descends met levels ∧ Descends (levels.reverse ++ met) levels' := by
  induction levels generalizing met with
  | nil => simp [Descends]
  | cons level levels ih => simp [Descends, ih, and_assoc]

theorem Descends.head_le {met levels : List Nat} {level : Nat} (h : Descends met (level :: levels))
    {top : Nat} (bounded : ∀ l ∈ met, l ≤ top) : level ≤ top + 1 := by
  obtain ⟨⟨l, hl, near⟩, -⟩ := h
  exact near.trans (Nat.succ_le_succ (bounded l hl))

theorem Descends.le {met levels : List Nat} (h : Descends met levels) (top : Nat)
    (bounded : ∀ l ∈ met, l ≤ top) : ∀ level ∈ levels, level ≤ top + levels.length := by
  induction levels generalizing met top with
  | nil => nofun
  | cons level levels ih =>
    have first : level ≤ top + 1 := h.head_le bounded
    have deeper := ih h.2 (top + 1)
      (List.forall_mem_cons.2 ⟨first, fun k hk => (bounded k hk).trans (Nat.le_succ top)⟩)
    rw [List.length_cons, List.forall_mem_cons]
    exact ⟨by omega, fun k hk => by have := deeper k hk; omega⟩

mutual

theorem descends_levels {met : List Nat} {level : Nat} (near : ∃ l ∈ met, level ≤ l + 1)
    (v : Value) : Descends met (v.levels level) := by
  cases v with
  | list vs => exact ⟨near, descends_itemLevels ⟨level, List.mem_cons_self, Nat.le_succ level⟩ vs⟩
  | record fs =>
    exact ⟨near, descends_fieldLevels ⟨level, List.mem_cons_self, Nat.le_refl _⟩ fs⟩
  | _ => trivial

theorem descends_itemLevels {met : List Nat} {level : Nat} (near : ∃ l ∈ met, level ≤ l + 1)
    (vs : List Value) : Descends met (itemLevels level vs) := by
  cases vs with
  | nil => trivial
  | cons v vs =>
    refine descends_append.2 ⟨descends_levels near v, ?_⟩
    exact (descends_itemLevels near vs).mono fun _ => List.mem_append_right _

theorem descends_fieldLevels {met : List Nat} {level : Nat} (near : ∃ l ∈ met, level ≤ l + 1)
    (fs : List (String × Value)) : Descends met (fieldLevels level fs) := by
  cases fs with
  | nil => trivial
  | cons f fs =>
    refine descends_append.2 ⟨descends_levels near f.2, ?_⟩
    exact (descends_fieldLevels near fs).mono fun _ => List.mem_append_right _

end

theorem descends_from_top (v : Value) : Descends [0] (v.levels 1) :=
  descends_levels ⟨0, List.mem_cons_self, Nat.le_refl 1⟩ v

end Value

namespace Expression.Measure

open Value

variable {d n bound : Nat} {m : Measure} {levels : List Nat}

def proceed (maxDepth maxNodes : Number) (m : Measure) (level : Nat) : Measure :=
  if m.excess.isSome then m else m.enter maxDepth maxNodes level

theorem proceed_of_within {maxDepth maxNodes : Number} (h : m.excess = none) (level : Nat) :
    proceed maxDepth maxNodes m level = m.enter maxDepth maxNodes level := by
  simp [proceed, h]

theorem foldl_proceed_of_exceeded {maxDepth maxNodes : Number} (h : m.excess.isSome = true) :
    levels.foldl (proceed maxDepth maxNodes) m = m := by
  induction levels with
  | nil => rfl
  | cons level levels ih => rw [List.foldl_cons, proceed, if_pos h, ih]

mutual

theorem visit_eq_foldl (maxDepth maxNodes : Number) (m : Measure) (within : m.excess = none)
    (level : Nat) (v : Value) :
    visit maxDepth maxNodes m level v = (v.levels level).foldl (proceed maxDepth maxNodes) m := by
  cases v with
  | list vs =>
    rw [visit, Value.levels, List.foldl_cons, proceed_of_within within]
    cases h : (m.enter maxDepth maxNodes level).excess with
    | none => simpa [h] using visitItems_eq_foldl maxDepth maxNodes _ h level vs
    | some e => simp [h, foldl_proceed_of_exceeded]
  | record fs =>
    rw [visit, Value.levels, List.foldl_cons, proceed_of_within within]
    cases h : (m.enter maxDepth maxNodes level).excess with
    | none => simpa [h] using visitFields_eq_foldl maxDepth maxNodes _ h (level + 1) fs
    | some e => simp [h, foldl_proceed_of_exceeded]
  | _ => simp [visit, Value.levels]

theorem visitItems_eq_foldl (maxDepth maxNodes : Number) (m : Measure) (within : m.excess = none)
    (level : Nat) (vs : List Value) :
    visitItems maxDepth maxNodes m level vs =
      (itemLevels level vs).foldl (proceed maxDepth maxNodes) m := by
  cases vs with
  | nil => rfl
  | cons v vs =>
    rw [visitItems, itemLevels, List.foldl_append,
      ← visit_eq_foldl maxDepth maxNodes m within level v]
    cases h : (visit maxDepth maxNodes m level v).excess with
    | none => simpa [h] using visitItems_eq_foldl maxDepth maxNodes _ h level vs
    | some e => simp [h, foldl_proceed_of_exceeded]

theorem visitFields_eq_foldl (maxDepth maxNodes : Number) (m : Measure)
    (within : m.excess = none) (level : Nat) (fs : List (String × Value)) :
    visitFields maxDepth maxNodes m level fs =
      (fieldLevels level fs).foldl (proceed maxDepth maxNodes) m := by
  cases fs with
  | nil => rfl
  | cons f fs =>
    obtain ⟨k, v⟩ := f
    rw [visitFields, fieldLevels, List.foldl_append,
      ← visit_eq_foldl maxDepth maxNodes m within level v]
    cases h : (visit maxDepth maxNodes m level v).excess with
    | none => simpa [h] using visitFields_eq_foldl maxDepth maxNodes _ h level fs
    | some e => simp [h, foldl_proceed_of_exceeded]

end

/-- A number of nodes allowed compares exactly with every count up to a bound: numbers tell whole
numbers apart up to `2 ^ 53`. -/
def Exact (n bound : Nat) : Prop := n < 2 ^ 53 ∨ bound ≤ 2 ^ 53

/-- Measuring goes on with these levels ahead: no limit has been exceeded, and the levels go on from
ones that are no deeper than the nodes counted, so that all comparisons to come are exact. -/
structure Ahead (n bound : Nat) (m : Measure) (levels : List Nat) : Prop where
  exact : Exact n bound
  gradual : ∃ met, Descends met levels ∧ ∀ l ∈ met, l ≤ m.nodes
  many : m.nodes + levels.length ≤ bound
  within : m.excess = none
  few : m.nodes ≤ n

namespace Ahead

variable {level : Nat}

theorem head_le (h : Ahead n bound m (level :: levels)) : level ≤ m.nodes + 1 := by
  obtain ⟨met, gradual, shallow⟩ := h.gradual
  exact gradual.head_le shallow

theorem excess_enter (d : Nat) (h : Ahead n bound m (level :: levels)) :
    (m.enter (.finite d) (.finite n) level).excess =
      if d < level then some (.depth (.finite d))
      else if n < m.nodes + 1 then some (.nodes (.finite n)) else none := by
  have deep : level ≤ m.nodes + 1 := h.head_le
  have few : m.nodes ≤ n := h.few
  have many : m.nodes + 1 ≤ bound := by
    have := h.many
    rw [List.length_cons] at this
    omega
  have small : m.nodes + 1 ≤ 2 ^ 53 := by
    rcases h.exact with exact | exact <;> omega
  have depth : (Number.finite d).lt (level : Nat) = decide (d < level) :=
    Number.lt_natCast d (deep.trans small)
  have count : (Number.finite n).lt (m.nodes + 1 : Nat) = decide (n < m.nodes + 1) :=
    Number.lt_natCast n small
  simp only [Measure.enter, depth, count, decide_eq_true_iff]

theorem excess_enter_eq_none_iff (h : Ahead n bound m (level :: levels)) :
    (m.enter (.finite d) (.finite n) level).excess = none ↔ level ≤ d ∧ m.nodes + 1 ≤ n := by
  rw [h.excess_enter]
  split
  · simp only [reduceCtorEq, false_iff]
    omega
  · split
    · simp only [reduceCtorEq, false_iff]
      omega
    · simp only [true_iff]
      omega

theorem enter (h : Ahead n bound m (level :: levels))
    (clear : (m.enter (.finite d) (.finite n) level).excess = none) :
    Ahead n bound (m.enter (.finite d) (.finite n) level) levels where
  exact := h.exact
  gradual := by
    obtain ⟨met, gradual, shallow⟩ := h.gradual
    exact ⟨level :: met, gradual.2,
      List.forall_mem_cons.2 ⟨h.head_le, fun l hl => (shallow l hl).trans (Nat.le_succ _)⟩⟩
  many := by
    have many := h.many
    rw [List.length_cons, Nat.add_comm levels.length, ← Nat.add_assoc] at many
    exact many
  within := clear
  few := (h.excess_enter_eq_none_iff.1 clear).2

theorem excess_foldl_eq_none_iff (h : Ahead n bound m levels) :
    (levels.foldl (proceed (.finite d) (.finite n)) m).excess = none ↔
      (∀ level ∈ levels, level ≤ d) ∧ m.nodes + levels.length ≤ n := by
  induction levels generalizing m with
  | nil => simp [h.within, h.few]
  | cons level levels ih =>
    have counted : (m.enter (.finite d) (.finite n) level).nodes = m.nodes + 1 := rfl
    rw [List.foldl_cons, proceed_of_within h.within, List.forall_mem_cons, List.length_cons]
    cases found : (m.enter (.finite d) (.finite n) level).excess with
    | none =>
      have shallow : level ≤ d := (h.excess_enter_eq_none_iff.1 found).1
      rw [ih (h.enter found), counted, Nat.add_right_comm, Nat.add_assoc]
      simp only [shallow, true_and]
    | some e =>
      have past : ¬ (level ≤ d ∧ m.nodes + 1 ≤ n) := by
        rw [← h.excess_enter_eq_none_iff, found]
        simp
      rw [foldl_proceed_of_exceeded (by rw [found]; rfl), found]
      simp only [reduceCtorEq, false_iff]
      rintro ⟨⟨shallow, -⟩, few⟩
      exact past ⟨shallow, by omega⟩

end Ahead

variable {raw : Value}

theorem ofValue_eq_foldl (maxDepth maxNodes : Number) (raw : Value) :
    ofValue raw maxDepth maxNodes = (raw.levels 1).foldl (proceed maxDepth maxNodes) start :=
  visit_eq_foldl maxDepth maxNodes start rfl 1 raw

theorem ahead_start (exact : Exact n (raw.levels 1).length) :
    Ahead n (raw.levels 1).length start (raw.levels 1) where
  exact := exact
  gradual := ⟨[0], descends_from_top raw, by simp⟩
  many := by simp [start]
  within := rfl
  few := Nat.zero_le n

/-- A tree is within natural limits exactly when none of its lists and records lies too deep and
there are not too many of them. -/
theorem excess_ofValue_eq_none_iff (exact : Exact n (raw.levels 1).length) :
    (ofValue raw (.finite d) (.finite n)).excess = none ↔
      (∀ level ∈ raw.levels 1, level ≤ d) ∧ (raw.levels 1).length ≤ n := by
  rw [ofValue_eq_foldl, (ahead_start exact).excess_foldl_eq_none_iff]
  simp [start]

end Expression.Measure
end VisaEligibility
