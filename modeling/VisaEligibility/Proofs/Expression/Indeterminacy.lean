import VisaEligibility.Proofs.Expression.Raising
/-!
When an expression has no value: exactly if it refers to a fact that the case lacks, wherever the
reference stands, also where an evaluation would not come. The places of references are paths, and
the order in which places come first is that of their paths.
-/
set_option autoImplicit false

namespace VisaEligibility

def Expression.Evaluation.truth? : Evaluation → Option Bool
  | value b => some b
  | missing _ => none

namespace Expression

open EvaluationError

/-- A reference to the fact stands at the end of the path, which gives the position among its
siblings at each level. -/
inductive OccursAt (n : String) : List Nat → Expression → Prop where
  | here {t : Option ScalarKind} : OccursAt n [] (var n t)
  | under {e c : Expression} {i : Nat} {p : List Nat} (child : e.children[i]? = some c)
      (within : OccursAt n p c) : OccursAt n (i :: p) e

variable {f : Facts} {e node : Expression} {cs : List Expression} {a b n : String}

theorem names_eq_children (hv : ∀ n t, e ≠ var n t) : e.names = e.children.flatMap names := by
  cases e with
  | var n t => exact absurd rfl (hv n t)
  | _ => simp [names, children, namesOf_eq_flatMap]

/-- Induction from the children of an expression, whatever its form. -/
@[elab_as_elim]
theorem childrenInduct {motive : Expression → Prop} (var : ∀ n t, motive (var n t))
    (node : ∀ e, (∀ n t, e ≠ .var n t) → (∀ c ∈ e.children, motive c) → motive e)
    (e : Expression) : motive e := by
  induction e using induct with
  | var n t => exact var n t
  | literal v => exact node _ (by simp) (by simp [children])
  | compare c l r ihl ihr => exact node _ (by simp) (by simp [children, ihl, ihr])
  | and es ih => exact node _ (by simp) ih
  | or es ih => exact node _ (by simp) ih
  | not e ih => exact node _ (by simp) (by simp [children, ih])
  | member e os ih => exact node _ (by simp) (by simp [children, ih])

theorem occursAt_var {t : Option ScalarKind} {p : List Nat} :
    OccursAt a p (var n t) ↔ p = [] ∧ a = n := by
  constructor
  · intro h
    cases h with
    | here => exact ⟨rfl, rfl⟩
    | under child _ => cases child
  · rintro ⟨rfl, rfl⟩
    exact .here

theorem exists_occursAt : (∃ p, OccursAt n p e) ↔ n ∈ e.names := by
  induction e using childrenInduct with
  | var m t => simp [occursAt_var, names]
  | node e hv ih =>
    rw [names_eq_children hv, List.mem_flatMap]
    constructor
    · rintro ⟨p, h⟩
      cases h with
      | here => exact absurd rfl (hv _ _)
      | under child within =>
        have hc := List.mem_of_getElem? child
        exact ⟨_, hc, (ih _ hc).1 ⟨_, within⟩⟩
    · rintro ⟨c, hc, hn⟩
      obtain ⟨i, child⟩ := List.mem_iff_getElem?.1 hc
      obtain ⟨p, within⟩ := (ih c hc).2 hn
      exact ⟨i :: p, .under child within⟩

theorem idxOf_lt_append {l m : List String}
    (first : (l ++ m).idxOf a < (l ++ m).idxOf b) :
    l.idxOf a < l.idxOf b ∨ b ∉ l ∧ m.idxOf a < m.idxOf b := by
  by_cases ha : a ∈ l
  · have bound := List.idxOf_lt_length_of_mem ha
    rw [List.idxOf_append_of_mem ha] at first
    by_cases hb : b ∈ l
    · rw [List.idxOf_append_of_mem hb] at first
      exact .inl first
    · rw [List.idxOf_of_notMem hb]
      exact .inl bound
  · rw [List.idxOf_append_of_notMem ha] at first
    by_cases hb : b ∈ l
    · have bound := List.idxOf_lt_length_of_mem hb
      rw [List.idxOf_append_of_mem hb] at first
      omega
    · rw [List.idxOf_append_of_notMem hb] at first
      exact .inr ⟨hb, by omega⟩

/-- A reference to the first fact stands before all references to the second. -/
def Precedes (a b : String) (e : Expression) : Prop :=
  ∃ p, OccursAt a p e ∧ ∀ q, OccursAt b q e → p < q

/-- What comes first among the names of several expressions comes first by its place. -/
theorem precedes_of_children
    (each : ∀ c ∈ cs, c.names.idxOf a < c.names.idxOf b → Precedes a b c)
    (first : (cs.flatMap names).idxOf a < (cs.flatMap names).idxOf b) :
    ∃ i p c, cs[i]? = some c ∧ OccursAt a p c ∧
      ∀ j q d, cs[j]? = some d → OccursAt b q d → i :: p < j :: q := by
  induction cs with
  | nil => cases first
  | cons c cs ih =>
    obtain ⟨here, others⟩ := List.forall_mem_cons.1 each
    rw [List.flatMap_cons] at first
    rcases idxOf_lt_append first with within | ⟨absent, later⟩
    · obtain ⟨p, standing, before⟩ := here within
      refine ⟨0, p, c, rfl, standing, fun j q d child h => List.cons_lt_cons_iff.2 ?_⟩
      cases j with
      | zero =>
        cases child
        exact .inr ⟨rfl, before q h⟩
      | succ j => exact .inl j.succ_pos
    · obtain ⟨i, p, d, child, standing, before⟩ := ih others later
      refine ⟨i + 1, p, d, child, standing, fun j q d' child' h => List.cons_lt_cons_iff.2 ?_⟩
      cases j with
      | zero =>
        cases child'
        exact absurd (exists_occursAt.1 ⟨q, h⟩) absent
      | succ j =>
        exact (List.cons_lt_cons_iff.1 (before j q d' child' h)).imp Nat.succ_lt_succ
          (And.imp_left (congrArg Nat.succ))

theorem precedes_of_idxOf (first : e.names.idxOf a < e.names.idxOf b) : Precedes a b e := by
  induction e using childrenInduct with
  | var n t =>
    have here : a ∈ [n] := List.idxOf_lt_length_iff.1 (first.trans_le List.idxOf_le_length)
    refine ⟨[], occursAt_var.2 ⟨rfl, List.mem_singleton.1 here⟩, fun q h => ?_⟩
    rw [(occursAt_var.1 h).2, names, List.idxOf_cons_self] at first
    cases first
  | node e hv ih =>
    rw [names_eq_children hv] at first
    obtain ⟨i, p, c, child, standing, before⟩ := precedes_of_children ih first
    refine ⟨i :: p, .under child standing, fun q h => ?_⟩
    cases h with
    | here => exact absurd rfl (hv _ _)
    | under child' within => exact before _ _ _ child' within

theorem names_of_reaches (h : Reaches f e node) (hn : n ∈ node.names) : n ∈ e.names := by
  induction h with
  | self e => exact hn
  | under split _ _ ih =>
    obtain ⟨i, child⟩ := List.mem_iff_getElem?.1 (mem_of_split split)
    obtain ⟨p, within⟩ := exists_occursAt.2 (ih hn)
    exact exists_occursAt.1 ⟨i :: p, .under child within⟩

theorem coerce_ne_unavailable {v : Scalar} {t : ScalarKind} :
    v.coerce t ≠ .error (.unavailable n) := by
  intro h
  rcases Scalar.error_of_coerce h with ⟨other, -⟩ | ⟨other, -⟩ <;> cases other

theorem compare_ne_unavailable {c : Comparison} {l r : Scalar} {t : Option ScalarKind} :
    Scalar.compare c l r t ≠ .error (.unavailable n) := by
  intro h
  rcases Scalar.error_of_compare h with uncomparable | ⟨k, -, failed | failed⟩
  · cases uncomparable
  · exact coerce_ne_unavailable failed
  · exact coerce_ne_unavailable failed

theorem raises_unavailable (h : node.Raises f (.unavailable n)) :
    n ∈ node.names ∧ f.get? n = none := by
  cases node with
  | var m t =>
    rw [Raises, fetch] at h
    split at h
    · rename_i absent
      cases h
      exact ⟨List.mem_singleton.2 rfl, absent⟩
    · cases t with
      | none => cases h
      | some t => exact absurd h coerce_ne_unavailable
  | compare c l r =>
    obtain ⟨a, b, -, -, failed⟩ := h
    exact absurd failed compare_ne_unavailable
  | member e os =>
    obtain ⟨v, -, failed⟩ := h
    obtain ⟨o, -, compared⟩ := isMember_eq_error failed
    exact absurd compared compare_ne_unavailable
  | _ => cases h

theorem evaluate_ne_unavailable (complete : f.Complete) (n : String) :
    e.evaluate f ≠ .error (.unavailable n) := by
  intro h
  obtain ⟨present, failed⟩ := evaluate_eq_error.1 h
  obtain ⟨node, reached, raised⟩ := (error_iff_meets (x := .unavailable n) nofun e).1.1 failed
  obtain ⟨named, absent⟩ := raises_unavailable raised
  have known := complete n (present n (names_of_reaches reached named))
  rw [absent] at known
  cases known

theorem missingNames_of_evaluate {v : Evaluation} (h : e.evaluate f = .ok v) :
    v.missingNames = e.missingFacts f ∧ (v.truth? = none ↔ e.missingFacts f ≠ []) := by
  by_cases complete : e.missingFacts f = []
  · rw [evaluate_of_complete complete] at h
    rw [complete]
    cases held : e.holds f with
    | error x => simp [held, Except.map] at h
    | ok b =>
      rw [held] at h
      cases h
      exact ⟨rfl, nofun, fun some => absurd rfl some⟩
  · rw [evaluate_of_missing complete] at h
    cases h
    exact ⟨rfl, fun _ => complete, fun _ => rfl⟩

theorem mem_missing_iff : n ∈ e.missingFacts f ↔ (∃ p, OccursAt n p e) ∧ f.has n = false := by
  rw [mem_missingFacts, exists_occursAt]

/-- An expression has no value exactly if a fact it refers to is missing. It is then not evaluated,
and the missing facts are listed, each once, in the order in which they first occur; otherwise the
list is empty. Where every fact that is there has a value, no evaluation asks for one in vain. -/
theorem indeterminate_exactly_without_facts (e : Expression) (complete : f.Complete) :
    ((∃ v, e.evaluate f = .ok v ∧ v.truth? = none) ↔ ∃ n p, OccursAt n p e ∧ f.has n = false) ∧
    (∀ v, e.evaluate f = .ok v → v.missingNames.Nodup ∧
      (∀ n, n ∈ v.missingNames ↔ (∃ p, OccursAt n p e) ∧ f.has n = false) ∧
      v.missingNames.Pairwise (Precedes · · e) ∧
      (v.truth? ≠ none → v.missingNames = [])) ∧
    ∀ n, e.evaluate f ≠ .error (.unavailable n) := by
  refine ⟨?_, fun v hv => ?_, evaluate_ne_unavailable complete⟩
  · have lacking : (∃ n p, OccursAt n p e ∧ f.has n = false) ↔ e.missingFacts f ≠ [] := by
      constructor
      · rintro ⟨n, p, occurs, absent⟩
        exact List.ne_nil_of_mem (mem_missing_iff.2 ⟨⟨p, occurs⟩, absent⟩)
      · intro some
        obtain ⟨n, hn⟩ := List.exists_mem_of_ne_nil _ some
        obtain ⟨⟨p, occurs⟩, absent⟩ := mem_missing_iff.1 hn
        exact ⟨n, p, occurs, absent⟩
    rw [lacking]
    constructor
    · rintro ⟨v, hv, none⟩
      exact (missingNames_of_evaluate hv).2.1 none
    · intro some
      exact ⟨_, evaluate_of_missing some, rfl⟩
  · obtain ⟨same, none⟩ := missingNames_of_evaluate hv
    rw [same]
    refine ⟨(nodup_distinct _).filter _, fun n => mem_missing_iff, ?_, fun some => ?_⟩
    · exact ((pairwise_distinct _).filter _).imp precedes_of_idxOf
    · by_contra missing
      exact some (none.2 missing)

def sponsoredOrOthers : Expression :=
  or [var "sponsor" none, not (var "has_degree" none),
    compare .ge (var "salary" none) (literal (.number 38700)), var "has_degree" none]

def sponsored : Facts := ⟨[("sponsor", some (.bool true))]⟩

/-- The sponsor would decide, and the degree is asked for before and after the salary. -/
theorem indeterminate_exactly_without_facts_salary : sponsored.Complete ∧
    sponsoredOrOthers.evaluate sponsored = .ok (.missing ["has_degree", "salary"]) ∧
    (∃ n p, OccursAt n p sponsoredOrOthers ∧ sponsored.has n = false) ∧
    Precedes "has_degree" "salary" sponsoredOrOthers := by
  have complete : sponsored.Complete := by
    intro name known
    have same : "sponsor" = name := by
      simpa [Facts.has, Entries.has, sponsored] using known
    rw [← same]
    decide +kernel
  have missing : sponsoredOrOthers.evaluate sponsored =
      .ok (.missing ["has_degree", "salary"]) := by decide +kernel
  obtain ⟨exact_, listed, -⟩ := indeterminate_exactly_without_facts sponsoredOrOthers complete
  obtain ⟨-, -, ordered, -⟩ := listed _ missing
  exact ⟨complete, missing, exact_.1 ⟨_, missing, rfl⟩, List.pairwise_pair.1 ordered⟩

end Expression
end VisaEligibility
