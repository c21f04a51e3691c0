import VisaEligibility.Proofs.Expression.Comparisons
import VisaEligibility.Proofs.Expression.Extent
/-!
Where an error of an evaluation is raised: at a node that the evaluation reaches, passing all that
stands before it, and by what that node itself does. Errors about operands that are no truth values
are left aside, as they depend on where a node stands.
-/
set_option autoImplicit false

namespace VisaEligibility.Expression

def children : Expression → List Expression
  | compare _ l r => [l, r]
  | and es => es
  | or es => es
  | not e => [e]
  | member e _ => [e]
  | _ => []

/-- Whether the evaluation of an expression goes on past one of its children. -/
def Passes (f : Facts) : Expression → Expression → Prop
  | compare _ _ _, c => ∃ v, c.scalar f = .ok v
  | and _, c => c.holds f = .ok true
  | or _, c => c.holds f = .ok false
  | _, _ => True

/-- The evaluation of an expression comes to a node of it. -/
inductive Reaches (f : Facts) : Expression → Expression → Prop where
  | self (e : Expression) : Reaches f e e
  | under {e c node : Expression} {before after : List Expression}
      (split : e.children = before ++ c :: after) (passed : ∀ b ∈ before, e.Passes f b)
      (within : Reaches f c node) : Reaches f e node

/-- What a node does once its children have come out raises the error. -/
def Raises (f : Facts) (x : EvaluationError) : Expression → Prop
  | var n t => fetch f n t = .error x
  | compare c l r => ∃ a b, l.scalar f = .ok a ∧ r.scalar f = .ok b ∧
      Scalar.compare c a b (l.declaredType.orElse fun _ => r.declaredType) = .error x
  | member e os => ∃ v, e.scalar f = .ok v ∧ isMember v e.declaredType os = .error x
  | _ => False

/-- The evaluation comes to a node that raises the error. -/
def Meets (f : Facts) (x : EvaluationError) (e : Expression) : Prop :=
  ∃ node, Reaches f e node ∧ node.Raises f x

open EvaluationError

variable {f : Facts} {x : EvaluationError} {e c node : Expression} {es : List Expression}

theorem mem_of_split {before after : List Expression} (split : es = before ++ c :: after) :
    c ∈ es := by
  rw [split]
  exact List.mem_append_right _ List.mem_cons_self

theorem Reaches.trans (h : Reaches f e c) (h' : Reaches f c node) : Reaches f e node := by
  induction h with
  | self e => exact h'
  | under split passed _ ih => exact .under split passed (ih h')

theorem nodes_eq (e : Expression) : e.nodes = e :: e.children.flatMap nodes := by
  cases e <;> simp [children, nodesOf_eq_flatMap]

theorem self_mem_nodes (e : Expression) : e ∈ e.nodes := by
  rw [nodes_eq]
  exact List.mem_cons_self

theorem mem_nodes_of_child (hc : c ∈ e.children) (hn : node ∈ c.nodes) : node ∈ e.nodes := by
  rw [nodes_eq]
  exact List.mem_cons_of_mem _ (List.mem_flatMap.2 ⟨c, hc, hn⟩)

theorem meets_iff : Meets f x e ↔ e.Raises f x ∨ ∃ before c after,
    e.children = before ++ c :: after ∧ (∀ b ∈ before, e.Passes f b) ∧ Meets f x c := by
  constructor
  · rintro ⟨node, reached, raised⟩
    cases reached with
    | self => exact .inl raised
    | under split passed within => exact .inr ⟨_, _, _, split, passed, node, within, raised⟩
  · rintro (raised | ⟨before, c, after, split, passed, node, within, raised⟩)
    · exact ⟨e, .self e, raised⟩
    · exact ⟨node, .under split passed within, raised⟩

/-- A connective that goes on from operand to operand for one truth value and stops at the other. -/
structure RunsOn (f : Facts) (go : Bool) (run : List Expression → Except EvaluationError Bool) :
    Prop where
  nil : run [] = .ok go
  cons (e : Expression) (es : List Expression) :
    run (e :: es) = e.holds f >>= fun b => if b = go then run es else .ok b

theorem runsOn_allHold (f : Facts) : RunsOn f true (allHold f) where
  nil := rfl
  cons e es := by
    rw [allHold]
    congr 1
    funext b
    cases b <;> rfl

theorem runsOn_someHolds (f : Facts) : RunsOn f false (someHolds f) where
  nil := rfl
  cons e es := by
    rw [someHolds]
    congr 1
    funext b
    cases b <;> rfl

theorem RunsOn.eq_error {go : Bool} {run : List Expression → Except EvaluationError Bool}
    (h : RunsOn f go run) : run es = .error x ↔ ∃ before c after,
      es = before ++ c :: after ∧ (∀ b ∈ before, b.holds f = .ok go) ∧ c.holds f = .error x := by
  induction es with
  | nil => simp [h.nil]
  | cons e es ih =>
    rw [h.cons, bind_eq_error]
    constructor
    · rintro (failed | ⟨b, held, later⟩)
      · exact ⟨[], e, es, rfl, nofun, failed⟩
      · by_cases gone : b = go
        · rw [if_pos gone] at later
          obtain ⟨before, c, after, rfl, passed, failed⟩ := ih.1 later
          exact ⟨e :: before, c, after, rfl, List.forall_mem_cons.2 ⟨gone ▸ held, passed⟩, failed⟩
        · rw [if_neg gone] at later
          cases later
    · rintro ⟨before, c, after, split, passed, failed⟩
      cases before with
      | nil =>
        cases split
        exact .inl failed
      | cons b before =>
        cases split
        obtain ⟨held, passed⟩ := List.forall_mem_cons.1 passed
        refine .inr ⟨go, held, ?_⟩
        rw [if_pos rfl]
        exact ih.2 ⟨before, c, after, rfl, passed, failed⟩

theorem scalar_eq_holds (hv : ∀ n t, e ≠ var n t) (hl : ∀ v, e ≠ literal v) :
    e.scalar f = (e.holds f).map .bool := by
  cases e with
  | var n t => exact absurd rfl (hv n t)
  | literal v => exact absurd rfl (hl v)
  | compare c l r =>
    rw [scalar, holds]
    cases l.scalar f with
    | error x => rfl
    | ok a => cases r.scalar f <;> rfl
  | and es => rw [scalar, holds]; rfl
  | or es => rw [scalar, holds]; rfl
  | not e => rw [scalar, holds]; cases e.holds f <;> rfl
  | member e os => rw [scalar, holds]; cases e.scalar f <;> rfl

section Parts

theorem meets_operands (e : Expression) {go : Bool} (operands : e.children = es)
    (quiet : ¬e.Raises f x) (passes : ∀ c, e.Passes f c ↔ c.holds f = .ok go)
    (each : ∀ c ∈ es, c.holds f = .error x ↔ Meets f x c) :
    Meets f x e ↔ ∃ before c after,
      es = before ++ c :: after ∧ (∀ b ∈ before, b.holds f = .ok go) ∧ c.holds f = .error x := by
  rw [meets_iff, or_iff_right quiet, operands]
  simp only [passes]
  constructor
  · rintro ⟨before, c, after, split, passed, met⟩
    exact ⟨before, c, after, split, passed, (each c (mem_of_split split)).2 met⟩
  · rintro ⟨before, c, after, split, passed, failed⟩
    exact ⟨before, c, after, split, passed, (each c (mem_of_split split)).1 failed⟩

theorem meets_single (single : e.children = [c]) : Meets f x e ↔ e.Raises f x ∨ Meets f x c := by
  rw [meets_iff, single]
  refine or_congr_right ⟨?_, fun met => ⟨[], c, [], rfl, nofun, met⟩⟩
  rintro ⟨before, d, after, split, -, met⟩
  cases before with
  | nil =>
    cases split
    exact met
  | cons b before => cases before <;> cases split

theorem meets_compare {o : Comparison} {l r : Expression} : Meets f x (compare o l r) ↔
    (compare o l r).Raises f x ∨ Meets f x l ∨ (∃ a, l.scalar f = .ok a) ∧ Meets f x r := by
  rw [meets_iff]
  refine or_congr_right ⟨?_, ?_⟩
  · rintro ⟨before, c, after, split, passed, met⟩
    rcases before with _ | ⟨b, _ | ⟨b', before⟩⟩
    · cases split
      exact .inl met
    · cases split
      exact .inr ⟨passed _ List.mem_cons_self, met⟩
    · cases before <;> cases split
  · rintro (met | ⟨passed, met⟩)
    · exact ⟨[], l, [r], rfl, nofun, met⟩
    · exact ⟨[l], r, [], rfl, List.forall_mem_singleton.2 passed, met⟩

end Parts

/-- An evaluation fails exactly by an error that is raised at a node it comes to, as a truth value
and as a scalar alike. The induction goes through both, as a comparison needs scalars. -/
theorem error_iff_meets (inner : ∀ n v, x ≠ .notBoolean n v) (e : Expression) :
    (e.holds f = .error x ↔ Meets f x e) ∧ (e.scalar f = .error x ↔ Meets f x e) := by
  have whole {e : Expression} (hv : ∀ n t, e ≠ var n t) (hl : ∀ v, e ≠ literal v)
      (h : e.holds f = .error x ↔ Meets f x e) :
      (e.holds f = .error x ↔ Meets f x e) ∧ (e.scalar f = .error x ↔ Meets f x e) := by
    rw [scalar_eq_holds hv hl, map_eq_error]
    exact ⟨h, h⟩
  have required {n : Option String} {v : Scalar} : requireBool n v ≠ .error x := by
    intro failed
    cases v <;> cases failed <;> exact inner _ _ rfl
  induction e using induct with
  | var n t =>
    rw [meets_iff, holds, scalar, bind_eq_error]
    simp [Raises, children, required]
  | literal v =>
    rw [meets_iff, holds, scalar]
    simp [Raises, children, required]
  | compare c l r ihl ihr =>
    refine whole (by simp) (by simp) ?_
    rw [meets_compare, holds, bind_eq_error, ihl.2]
    simp only [bind_eq_error, ihr.2, Raises]
    constructor
    · rintro (left | ⟨a, ha, right | ⟨b, hb, raised⟩⟩)
      · exact .inr (.inl left)
      · exact .inr (.inr ⟨⟨a, ha⟩, right⟩)
      · exact .inl ⟨a, b, ha, hb, raised⟩
    · rintro (⟨a, b, ha, hb, raised⟩ | left | ⟨⟨a, ha⟩, right⟩)
      · exact .inr ⟨a, ha, .inr ⟨b, hb, raised⟩⟩
      · exact .inl left
      · exact .inr ⟨a, ha, .inl right⟩
  | and es ih =>
    refine whole (by simp) (by simp) ?_
    rw [holds, (runsOn_allHold f).eq_error]
    exact (meets_operands (and es) rfl id (fun c => Iff.rfl) fun c hc => (ih c hc).1).symm
  | or es ih =>
    refine whole (by simp) (by simp) ?_
    rw [holds, (runsOn_someHolds f).eq_error]
    exact (meets_operands (or es) rfl id (fun c => Iff.rfl) fun c hc => (ih c hc).1).symm
  | not e ih =>
    refine whole (by simp) (by simp) ?_
    rw [meets_single rfl, holds, bind_eq_error, ih.1]
    simp [Raises, pure, Except.pure]
  | member e os ih =>
    refine whole (by simp) (by simp) ?_
    rw [meets_single rfl, holds, bind_eq_error, ih.2]
    exact or_comm

theorem evaluate_eq_error : e.evaluate f = .error x ↔
    (∀ n ∈ e.names, f.has n = true) ∧ e.holds f = .error x := by
  have complete : e.missingFacts f = [] ↔ ∀ n ∈ e.names, f.has n = true := by
    simp [List.eq_nil_iff_forall_not_mem]
  rw [← complete]
  by_cases h : e.missingFacts f = []
  · rw [evaluate_of_complete h, map_eq_error]
    exact (and_iff_right h).symm
  · rw [evaluate_of_missing h]
    exact iff_of_false nofun fun both => h both.1

theorem isMember_eq_error {v : Scalar} {t : Option ScalarKind} {os : List Scalar}
    (h : isMember v t os = .error x) : ∃ o ∈ os, Scalar.compare .eq v o t = .error x := by
  induction os with
  | nil => cases h
  | cons o os ih =>
    rw [isMember, bind_eq_error] at h
    rcases h with failed | ⟨b, -, later⟩
    · exact ⟨o, List.mem_cons_self, failed⟩
    · cases b with
      | true => cases later
      | false =>
        obtain ⟨o, ho, failed⟩ := ih later
        exact ⟨o, List.mem_cons_of_mem _ ho, failed⟩

end VisaEligibility.Expression
