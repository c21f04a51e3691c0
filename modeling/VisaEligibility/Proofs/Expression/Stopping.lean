import VisaEligibility.Proofs.Expression.Measuring
/-!
Where measuring a raw tree stops. Within natural limits it counts every list and record and finds
the deepest level; past them it stops at the first one that exceeds a limit, at most one beyond
either, and its calls never nest deeper than the number of nodes allows.
-/
set_option autoImplicit false

namespace VisaEligibility.Expression.Measure

open Value

/-- The limit that is exceeded first as the nodes are met, and where: by the level of a node, or
else by the number of nodes up to it. -/
inductive ExceededFirst (d n : Nat) (levels : List Nat) : Excess → Prop where
  | depth {before after : List Nat} {level : Nat} (split : levels = before ++ level :: after)
      (shallow : ∀ l ∈ before, l ≤ d) (few : before.length ≤ n) (deep : d < level) :
      ExceededFirst d n levels (.depth (.finite d))
  | nodes {before after : List Nat} {level : Nat} (split : levels = before ++ level :: after)
      (shallow : ∀ l ∈ before, l ≤ d) (few : before.length ≤ n) (allowed : level ≤ d)
      (many : n < before.length + 1) :
      ExceededFirst d n levels (.nodes (.finite n))

mutual

/-- Measures as `visit` does, and tells how many of its calls are open at once at most. -/
def visitNested (maxDepth maxNodes : Number) (m : Measure) (level : Nat) : Value → Measure × Nat
  | .list vs =>
    let m := m.enter maxDepth maxNodes level
    if m.excess.isSome then (m, 1)
    else
      let (m, calls) := itemsNested maxDepth maxNodes m level vs
      (m, calls + 1)
  | .record fs =>
    let m := m.enter maxDepth maxNodes level
    if m.excess.isSome then (m, 1)
    else
      let (m, calls) := fieldsNested maxDepth maxNodes m (level + 1) fs
      (m, calls + 1)
  | _ => (m, 1)

def itemsNested (maxDepth maxNodes : Number) (m : Measure) (level : Nat) :
    List Value → Measure × Nat
  | [] => (m, 0)
  | v :: vs =>
    let (m, calls) := visitNested maxDepth maxNodes m level v
    if m.excess.isSome then (m, calls)
    else
      let (m, more) := itemsNested maxDepth maxNodes m level vs
      (m, max calls more)

def fieldsNested (maxDepth maxNodes : Number) (m : Measure) (level : Nat) :
    List (String × Value) → Measure × Nat
  | [] => (m, 0)
  | (_, v) :: fs =>
    let (m, calls) := visitNested maxDepth maxNodes m level v
    if m.excess.isSome then (m, calls)
    else
      let (m, more) := fieldsNested maxDepth maxNodes m level fs
      (m, max calls more)

end

variable {d n bound : Nat} {maxDepth maxNodes : Number} {m : Measure} {levels : List Nat}
  {x : Excess} {raw : Value}

theorem foldl_of_within (within : m.excess = none)
    (h : (levels.foldl (proceed maxDepth maxNodes) m).excess = none) :
    levels.foldl (proceed maxDepth maxNodes) m =
      ⟨m.nodes + levels.length, levels.foldl max m.depth, none⟩ := by
  induction levels generalizing m with
  | nil =>
    cases m
    cases within
    rfl
  | cons level levels ih =>
    rw [List.foldl_cons, proceed_of_within within] at h ⊢
    cases found : (m.enter maxDepth maxNodes level).excess with
    | none =>
      rw [ih found h, List.length_cons, List.foldl_cons, Nat.add_comm levels.length,
        ← Nat.add_assoc]
      rfl
    | some x =>
      rw [foldl_proceed_of_exceeded (by rw [found]; rfl), found] at h
      cases h

theorem exists_stop (within : m.excess = none)
    (h : (levels.foldl (proceed maxDepth maxNodes) m).excess = some x) :
    ∃ before level after, levels = before ++ level :: after ∧
      (before.foldl (proceed maxDepth maxNodes) m).excess = none ∧
      levels.foldl (proceed maxDepth maxNodes) m =
        (before.foldl (proceed maxDepth maxNodes) m).enter maxDepth maxNodes level := by
  induction levels generalizing m with
  | nil =>
    rw [List.foldl_nil, within] at h
    cases h
  | cons level levels ih =>
    rw [List.foldl_cons, proceed_of_within within] at h ⊢
    cases found : (m.enter maxDepth maxNodes level).excess with
    | none =>
      obtain ⟨before, last, after, rfl, clear, stops⟩ := ih found h
      refine ⟨level :: before, last, after, rfl, ?_, ?_⟩
      · rw [List.foldl_cons, proceed_of_within within, clear]
      · rw [List.foldl_cons, proceed_of_within within, stops]
    | some y =>
      exact ⟨[], level, levels, rfl, within, foldl_proceed_of_exceeded (by rw [found]; rfl)⟩

theorem foldl_max_le {start : Nat} (first : start ≤ bound) (h : ∀ l ∈ levels, l ≤ bound) :
    levels.foldl max start ≤ bound := by
  induction levels generalizing start with
  | nil => exact first
  | cons level levels ih =>
    obtain ⟨here, rest⟩ := List.forall_mem_cons.1 h
    exact ih (Nat.max_le.2 ⟨first, here⟩) rest

theorem foldl_max_zero (levels : List Nat) : levels.foldl max 0 = levels.max?.getD 0 := by
  cases levels with
  | nil => rfl
  | cons level levels => rw [List.foldl_cons, Nat.zero_max, List.max?_cons', Option.getD_some]

namespace Ahead

variable {level : Nat} {levels' : List Nat}

theorem left (h : Ahead n bound m (levels ++ levels')) : Ahead n bound m levels where
  exact := h.exact
  gradual := by
    obtain ⟨met, gradual, shallow⟩ := h.gradual
    exact ⟨met, (descends_append.1 gradual).1, shallow⟩
  many := by
    have := h.many
    rw [List.length_append] at this
    omega
  within := h.within
  few := h.few

theorem right (h : Ahead n bound m (levels ++ levels'))
    (clear : (levels.foldl (proceed (.finite d) (.finite n)) m).excess = none) :
    Ahead n bound (levels.foldl (proceed (.finite d) (.finite n)) m) levels' ∧
      m.nodes ≤ (levels.foldl (proceed (.finite d) (.finite n)) m).nodes := by
  have passed := h.left.excess_foldl_eq_none_iff.1 clear
  obtain ⟨met, gradual, shallow⟩ := h.gradual
  obtain ⟨before, after⟩ := descends_append.1 gradual
  have many := h.many
  rw [List.length_append, ← Nat.add_assoc] at many
  rw [foldl_of_within h.within clear]
  refine ⟨⟨h.exact, ⟨levels.reverse ++ met, after, fun l hl => ?_⟩, many, rfl, passed.2⟩,
    Nat.le_add_right _ _⟩
  rcases List.mem_append.1 hl with behind | met
  · exact before.le m.nodes shallow l (List.mem_reverse.1 behind)
  · exact (shallow l met).trans (Nat.le_add_right _ _)

theorem visited {v : Value} (h : Ahead n bound m (v.levels level ++ levels))
    (clear : (visit (.finite d) (.finite n) m level v).excess = none) :
    Ahead n bound (visit (.finite d) (.finite n) m level v) levels ∧
      m.nodes ≤ (visit (.finite d) (.finite n) m level v).nodes := by
  rw [visit_eq_foldl _ _ m h.within level v] at clear ⊢
  exact h.right clear

end Ahead

theorem Ahead.exceededFirst {before after : List Nat} {level : Nat}
    (h : Ahead n bound start (before ++ level :: after))
    (clear : (before.foldl (proceed (.finite d) (.finite n)) start).excess = none)
    (past : ((before.foldl (proceed (.finite d) (.finite n)) start).enter (.finite d) (.finite n)
      level).excess = some x) :
    ExceededFirst d n (before ++ level :: after) x := by
  obtain ⟨shallow, few⟩ := h.left.excess_foldl_eq_none_iff.1 clear
  have counted : (before.foldl (proceed (.finite d) (.finite n)) start).nodes = before.length := by
    rw [foldl_of_within rfl clear]
    exact Nat.zero_add _
  have few : before.length ≤ n := by simpa [start] using few
  rw [(h.right clear).1.excess_enter d, counted] at past
  split at past
  · rename_i deep
    cases past
    exact .depth rfl shallow few deep
  · rename_i allowed
    split at past
    · rename_i many
      cases past
      exact .nodes rfl shallow few (Nat.le_of_not_lt allowed) many
    · cases past

/-- Measuring that stops names the limit exceeded first, and goes at most one beyond each. -/
theorem overshoot (exact : Exact n (raw.levels 1).length)
    (h : (ofValue raw (.finite d) (.finite n)).excess = some x) :
    ExceededFirst d n (raw.levels 1) x ∧
    (ofValue raw (.finite d) (.finite n)).depth ≤ d + 1 ∧
    (ofValue raw (.finite d) (.finite n)).nodes ≤ n + 1 := by
  rw [ofValue_eq_foldl] at h ⊢
  obtain ⟨before, level, after, split, clear, stops⟩ := exists_stop rfl h
  have ahead := ahead_start exact
  have gradual := descends_from_top raw
  rw [split] at ahead gradual
  rw [stops] at h ⊢
  refine ⟨split ▸ ahead.exceededFirst clear h, ?_, Nat.succ_le_succ (ahead.right clear).1.few⟩
  have shallow := (ahead.left.excess_foldl_eq_none_iff.1 clear).1
  have near : level ≤ d + 1 := by
    refine (descends_append.1 gradual).2.head_le fun l met => ?_
    rcases List.mem_append.1 met with earlier | top
    · exact shallow l (List.mem_reverse.1 earlier)
    · exact (List.mem_singleton.1 top).trans_le (Nat.zero_le d)
  rw [foldl_of_within rfl clear]
  exact Nat.max_le.2
    ⟨foldl_max_le (Nat.zero_le _) fun l hl => (shallow l hl).trans (Nat.le_succ d), near⟩

mutual

theorem visitNested_fst (maxDepth maxNodes : Number) (m : Measure) (level : Nat) (v : Value) :
    (visitNested maxDepth maxNodes m level v).1 = visit maxDepth maxNodes m level v := by
  cases v with
  | list vs =>
    rw [visitNested, visit]
    split
    · rfl
    · exact itemsNested_fst maxDepth maxNodes _ level vs
  | record fs =>
    rw [visitNested, visit]
    split
    · rfl
    · exact fieldsNested_fst maxDepth maxNodes _ (level + 1) fs
  | _ => simp [visitNested, visit]

theorem itemsNested_fst (maxDepth maxNodes : Number) (m : Measure) (level : Nat)
    (vs : List Value) :
    (itemsNested maxDepth maxNodes m level vs).1 = visitItems maxDepth maxNodes m level vs := by
  cases vs with
  | nil => rfl
  | cons v vs =>
    rw [itemsNested, visitItems, ← visitNested_fst]
    dsimp only
    split
    · rfl
    · exact itemsNested_fst maxDepth maxNodes _ level vs

theorem fieldsNested_fst (maxDepth maxNodes : Number) (m : Measure) (level : Nat)
    (fs : List (String × Value)) :
    (fieldsNested maxDepth maxNodes m level fs).1 = visitFields maxDepth maxNodes m level fs := by
  cases fs with
  | nil => rfl
  | cons f fs =>
    rw [fieldsNested, visitFields, ← visitNested_fst]
    dsimp only
    split
    · rfl
    · exact fieldsNested_fst maxDepth maxNodes _ level fs

end

mutual

/-- All open calls but the last have counted a node, so the nodes allowed bound the calls. -/
theorem visitNested_le {m : Measure} {level : Nat} {v : Value}
    (h : Ahead n bound m (v.levels level)) :
    m.nodes + (visitNested (.finite d) (.finite n) m level v).2 ≤ n + 1 := by
  have few := h.few
  have counted : (m.enter (.finite d) (.finite n) level).nodes = m.nodes + 1 := rfl
  cases v with
  | list vs =>
    rw [visitNested]
    cases found : (m.enter (.finite d) (.finite n) level).excess with
    | some x => simpa [found] using few
    | none =>
      have inner := itemsNested_le (h.enter found)
      simp only [Option.isSome_none, Bool.false_eq_true, if_false]
      omega
  | record fs =>
    rw [visitNested]
    cases found : (m.enter (.finite d) (.finite n) level).excess with
    | some x => simpa [found] using few
    | none =>
      have inner := fieldsNested_le (h.enter found)
      simp only [Option.isSome_none, Bool.false_eq_true, if_false]
      omega
  | _ => simpa [visitNested] using few

theorem itemsNested_le {m : Measure} {level : Nat} {vs : List Value}
    (h : Ahead n bound m (itemLevels level vs)) :
    m.nodes + (itemsNested (.finite d) (.finite n) m level vs).2 ≤ n + 1 := by
  cases vs with
  | nil => exact h.few.trans (Nat.le_succ n)
  | cons v vs =>
    have first := visitNested_le (v := v) h.left
    simp only [itemsNested, visitNested_fst]
    cases found : (visit (.finite d) (.finite n) m level v).excess with
    | some x => simpa using first
    | none =>
      obtain ⟨ahead, grown⟩ := h.visited found
      have more := itemsNested_le ahead
      simp only [Option.isSome_none, Bool.false_eq_true, if_false]
      omega

theorem fieldsNested_le {m : Measure} {level : Nat} {fs : List (String × Value)}
    (h : Ahead n bound m (fieldLevels level fs)) :
    m.nodes + (fieldsNested (.finite d) (.finite n) m level fs).2 ≤ n + 1 := by
  cases fs with
  | nil => exact h.few.trans (Nat.le_succ n)
  | cons f fs =>
    have first := visitNested_le (v := f.2) h.left
    simp only [fieldsNested, visitNested_fst]
    cases found : (visit (.finite d) (.finite n) m level f.2).excess with
    | some x => simpa using first
    | none =>
      obtain ⟨ahead, grown⟩ := h.visited found
      have more := fieldsNested_le ahead
      simp only [Option.isSome_none, Bool.false_eq_true, if_false]
      omega

end

/-- A tree is within natural limits exactly if each of its lists and records lies on a level allowed
and there are not too many of them; then the depth is the greatest level and the nodes are their
number. Otherwise the excess is the one met first, and depth and nodes are at most one beyond their
limits. Either way at most one call more is open at once than nodes are allowed. Counts beyond
`2 ^ 53` are not told apart, so either fewer nodes are allowed or there are no more. -/
theorem measures_exactly_or_stops (d n : Nat) (raw : Value)
    (exact : n < 2 ^ 53 ∨ (raw.levels 1).length ≤ 2 ^ 53) :
    ((ofValue raw (.finite d) (.finite n)).excess = none ↔
      (∀ level ∈ raw.levels 1, level ≤ d) ∧ (raw.levels 1).length ≤ n) ∧
    ((ofValue raw (.finite d) (.finite n)).excess = none →
      (ofValue raw (.finite d) (.finite n)).depth = (raw.levels 1).max?.getD 0 ∧
      (ofValue raw (.finite d) (.finite n)).nodes = (raw.levels 1).length) ∧
    (∀ x, (ofValue raw (.finite d) (.finite n)).excess = some x →
      ExceededFirst d n (raw.levels 1) x ∧
      (ofValue raw (.finite d) (.finite n)).depth ≤ d + 1 ∧
      (ofValue raw (.finite d) (.finite n)).nodes ≤ n + 1) ∧
    (visitNested (.finite d) (.finite n) start 1 raw).1 = ofValue raw (.finite d) (.finite n) ∧
    (visitNested (.finite d) (.finite n) start 1 raw).2 ≤ n + 1 := by
  refine ⟨excess_ofValue_eq_none_iff exact, fun clear => ?_, fun x => overshoot exact,
    visitNested_fst _ _ start 1 raw, ?_⟩
  · rw [ofValue_eq_foldl] at clear ⊢
    rw [foldl_of_within rfl clear]
    exact ⟨foldl_max_zero _, Nat.zero_add _⟩
  · simpa [start] using visitNested_le (ahead_start exact)

def conjunction : Value :=
  .record [("op", .text "and"), ("operands", .list
    [.record [("op", .text "var"), ("name", .text "a")],
      .record [("op", .text "var"), ("name", .text "b")]])]

theorem measures_exactly_or_stops_conjunction :
    ((ofValue conjunction (.finite (20 : Nat)) (.finite (1000 : Nat))).depth = 2 ∧
      (ofValue conjunction (.finite (20 : Nat)) (.finite (1000 : Nat))).nodes = 4) ∧
    (conjunction.levels 1 = [1, 2, 2, 2] ∧
      ExceededFirst 1 1 [1, 2, 2, 2] (.depth (.finite (1 : Nat))) ∧
      (visitNested (.finite (1 : Nat)) (.finite (1 : Nat)) start 1 conjunction).2 ≤ 2) := by
  have small : (conjunction.levels 1).length ≤ 2 ^ 53 := by decide
  have whole := measures_exactly_or_stops 20 1000 conjunction (.inr small)
  have cut := measures_exactly_or_stops 1 1 conjunction (.inl (by decide))
  have stopped : (ofValue conjunction (.finite (1 : Nat)) (.finite (1 : Nat))).excess =
      some (.depth (.finite (1 : Nat))) := by
    decide +kernel
  exact ⟨whole.2.1 (whole.1.2 (by decide)), rfl, (cut.2.2.1 _ stopped).1, cut.2.2.2.2⟩

end VisaEligibility.Expression.Measure
