import Mathlib.Logic.Relation
import VisaEligibility.Proofs.Expression.Membership
/-!
The order of operands and options. Beside the evaluation in order stands one that knows no order: a
conjunction is false once any operand is and true if all are, whatever becomes of the others in the
first case. It comes to what the evaluation in order comes to, if that comes to anything, so that
another order can only make a failure of a truth value or the other way round.
-/
set_option autoImplicit false

namespace VisaEligibility

open EvaluationError Relation

def Scalar.truth? : Scalar → Option Bool
  | .bool b => some b
  | _ => none

namespace Expression

section AnyOrder

/-- Truth values taken together: the decisive one if it is there, its opposite if there is nothing
else. -/
def inAnyOrder (decisive : Bool) (xs : List (Option Bool)) : Option Bool :=
  if xs.contains (some decisive) then some decisive
  else if xs.all (· == some !decisive) then some !decisive
  else none

variable {decisive : Bool} {xs ys : List (Option Bool)}

theorem inAnyOrder_perm (h : xs.Perm ys) : inAnyOrder decisive xs = inAnyOrder decisive ys := by
  rw [inAnyOrder, inAnyOrder, h.contains_eq, h.all_eq]

theorem inAnyOrder_cons_decisive (decisive : Bool) (xs : List (Option Bool)) :
    inAnyOrder decisive (some decisive :: xs) = some decisive := by
  simp [inAnyOrder]

theorem inAnyOrder_cons_opposite (decisive : Bool) (xs : List (Option Bool)) :
    inAnyOrder decisive (some (!decisive) :: xs) = inAnyOrder decisive xs := by
  simp [inAnyOrder]

/-- What truth values come to one after the other, they come to together, also if some of those that
fail are known. -/
theorem inAnyOrder_of_inOrder {α : Type} {l : List α} {g : α → Except EvaluationError Bool}
    {k : α → Option Bool} (each : ∀ a ∈ l, ∀ b, g a = .ok b → k a = some b) {b : Bool}
    (h : inOrder decisive (l.map g) = .ok b) : inAnyOrder decisive (l.map k) = some b := by
  induction l with
  | nil =>
    cases h
    simp [inAnyOrder]
  | cons a l ih =>
    obtain ⟨here, others⟩ := List.forall_mem_cons.1 each
    rw [List.map_cons, inOrder, bind_eq_ok] at h
    obtain ⟨c, tried, rest⟩ := h
    rw [List.map_cons, here c tried]
    by_cases hit : c = decisive
    · rw [if_pos hit] at rest
      cases rest
      rw [hit, inAnyOrder_cons_decisive]
    · rw [if_neg hit] at rest
      rw [Bool.eq_not_of_ne hit, inAnyOrder_cons_opposite, ih others rest]

end AnyOrder

mutual

/-- The scalar of an expression when the operands of connectives and the options of memberships are
taken together. -/
def unordered (f : Facts) : Expression → Option Scalar
  | var n t => (fetch f n t).toOption
  | literal v => some v
  | compare c l r => do
    let a ← unordered f l
    let b ← unordered f r
    let t := l.declaredType.orElse fun _ => r.declaredType
    (Scalar.compare c a b t).toOption.map .bool
  | and es => (inAnyOrder false (unorderedAll f es)).map .bool
  | or es => (inAnyOrder true (unorderedAll f es)).map .bool
  | not e => do
    let b ← (← unordered f e).truth?
    return .bool !b
  | member e os => do
    let x ← unordered f e
    let equal := os.map fun o => (Scalar.compare .eq x o e.declaredType).toOption
    (inAnyOrder true equal).map .bool

def unorderedAll (f : Facts) : List Expression → List (Option Bool)
  | [] => []
  | e :: es => (unordered f e).bind Scalar.truth? :: unorderedAll f es

end

/-- The operands of one connective, or the options of one membership, are put in another order, at
the top or at any depth. -/
inductive Permutes : Expression → Expression → Prop where
  | conjunction {es es' : List Expression} (order : es.Perm es') : Permutes (and es) (and es')
  | disjunction {es es' : List Expression} (order : es.Perm es') : Permutes (or es) (or es')
  | options {os os' : List Scalar} (e : Expression) (order : os.Perm os') :
      Permutes (member e os) (member e os')
  | conjunct {e e' : Expression} (before after : List Expression) (step : Permutes e e') :
      Permutes (and (before ++ e :: after)) (and (before ++ e' :: after))
  | disjunct {e e' : Expression} (before after : List Expression) (step : Permutes e e') :
      Permutes (or (before ++ e :: after)) (or (before ++ e' :: after))
  | negated {e e' : Expression} (step : Permutes e e') : Permutes (not e) (not e')
  | left {l l' : Expression} (c : Comparison) (r : Expression) (step : Permutes l l') :
      Permutes (compare c l r) (compare c l' r)
  | right {r r' : Expression} (c : Comparison) (l : Expression) (step : Permutes r r') :
      Permutes (compare c l r) (compare c l r')
  | value {e e' : Expression} (os : List Scalar) (step : Permutes e e') :
      Permutes (member e os) (member e' os)

variable {f : Facts} {e e' : Expression} {es : List Expression}

theorem unorderedAll_eq_map (f : Facts) (es : List Expression) :
    unorderedAll f es = es.map fun e => (e.unordered f).bind Scalar.truth? := by
  induction es with
  | nil => rfl
  | cons e es ih => rw [unorderedAll, ih, List.map_cons]

/-- An expression comes to a scalar in order only if that is its scalar without order. -/
def Agrees (f : Facts) (e : Expression) : Prop :=
  (∀ b, e.holds f = .ok b → e.unordered f = some (.bool b)) ∧
    ∀ v, e.scalar f = .ok v → e.unordered f = some v

theorem Agrees.of_holds (hv : ∀ n t, e ≠ var n t) (hl : ∀ v, e ≠ literal v)
    (h : ∀ b, e.holds f = .ok b → e.unordered f = some (.bool b)) : e.Agrees f := by
  refine ⟨h, fun v hs => ?_⟩
  rw [scalar_eq_holds hv hl] at hs
  cases hb : e.holds f with
  | error x => simp [hb, Except.map] at hs
  | ok b =>
    rw [hb] at hs
    cases hs
    exact h b hb

theorem inAnyOrder_unorderedAll {decisive b : Bool} (each : ∀ e ∈ es, e.Agrees f)
    (h : inOrder decisive (es.map (holds f)) = .ok b) :
    inAnyOrder decisive (unorderedAll f es) = some b := by
  rw [unorderedAll_eq_map]
  refine inAnyOrder_of_inOrder (fun e he b hb => ?_) h
  rw [(each e he).1 b hb]
  rfl

theorem agrees (f : Facts) (e : Expression) : e.Agrees f := by
  induction e using induct with
  | var n t =>
    have fetched (v : Scalar) (h : fetch f n t = .ok v) : (var n t).unordered f = some v := by
      rw [unordered, h]
      rfl
    refine ⟨fun b h => ?_, fun v h => fetched v (by rwa [scalar] at h)⟩
    rw [holds, bind_eq_ok] at h
    obtain ⟨v, hv, required⟩ := h
    rw [fetched v hv]
    cases v <;> cases required
    rfl
  | literal v =>
    refine ⟨fun b h => ?_, fun w h => congrArg some (Except.ok.inj h)⟩
    cases v <;> cases h
    rfl
  | compare c l r ihl ihr =>
    refine .of_holds (by simp) (by simp) fun b h => ?_
    simp only [holds, bind_eq_ok] at h
    obtain ⟨a, hl, a', hr, compared⟩ := h
    simp only [unordered, ihl.2 a hl, ihr.2 a' hr, compared, Option.bind_eq_bind, Option.bind_some]
    rfl
  | and es ih =>
    refine .of_holds (by simp) (by simp) fun b h => ?_
    rw [holds_and] at h
    rw [unordered, inAnyOrder_unorderedAll ih h]
    rfl
  | or es ih =>
    refine .of_holds (by simp) (by simp) fun b h => ?_
    rw [holds_or] at h
    rw [unordered, inAnyOrder_unorderedAll ih h]
    rfl
  | not e ih =>
    refine .of_holds (by simp) (by simp) fun b h => ?_
    rw [holds, bind_eq_ok] at h
    obtain ⟨c, held, negated⟩ := h
    cases negated
    rw [unordered, ih.1 c held]
    rfl
  | member e os ih =>
    refine .of_holds (by simp) (by simp) fun b h => ?_
    rw [holds_member, bind_eq_ok] at h
    obtain ⟨x, hx, tried⟩ := h
    have found : inAnyOrder true
        (os.map fun o => (Scalar.compare .eq x o e.declaredType).toOption) = some b := by
      refine inAnyOrder_of_inOrder (fun o _ b hb => ?_) tried
      rw [hb]
      rfl
    simp only [unordered, ih.2 x hx, found, Option.bind_eq_bind, Option.bind_some]
    rfl

section Steps

theorem namesOf_perm {es es' : List Expression} (h : es.Perm es') :
    (namesOf es).Perm (namesOf es') := by
  rw [namesOf_eq_flatMap, namesOf_eq_flatMap]
  exact h.flatMap_right _

theorem namesOf_replace (before after : List Expression) (h : e.names.Perm e'.names) :
    (namesOf (before ++ e :: after)).Perm (namesOf (before ++ e' :: after)) := by
  simp only [namesOf_eq_flatMap, List.flatMap_append, List.flatMap_cons]
  exact (h.append_right _).append_left _

theorem Permutes.names (h : Permutes e e') : e.names.Perm e'.names := by
  induction h with
  | conjunction order => exact namesOf_perm order
  | disjunction order => exact namesOf_perm order
  | options e _ => exact .refl e.names
  | conjunct before after _ ih => exact namesOf_replace before after ih
  | disjunct before after _ ih => exact namesOf_replace before after ih
  | negated _ ih => exact ih
  | left c r _ ih => exact ih.append_right r.names
  | right c l _ ih => exact ih.append_left l.names
  | value os _ ih => exact ih

theorem Permutes.declaredType (h : Permutes e e') : e.declaredType = e'.declaredType := by
  cases h <;> rfl

theorem unorderedAll_perm {es es' : List Expression} (h : es.Perm es') :
    (unorderedAll f es).Perm (unorderedAll f es') := by
  rw [unorderedAll_eq_map, unorderedAll_eq_map]
  exact h.map _

theorem unorderedAll_replace (before after : List Expression)
    (h : e.unordered f = e'.unordered f) :
    unorderedAll f (before ++ e :: after) = unorderedAll f (before ++ e' :: after) := by
  simp only [unorderedAll_eq_map, List.map_append, List.map_cons, h]

/-- Without order, no reordering makes a difference. -/
theorem Permutes.unordered (h : Permutes e e') (f : Facts) : e.unordered f = e'.unordered f := by
  induction h with
  | conjunction order =>
    rw [Expression.unordered, Expression.unordered, inAnyOrder_perm (unorderedAll_perm order)]
  | disjunction order =>
    rw [Expression.unordered, Expression.unordered, inAnyOrder_perm (unorderedAll_perm order)]
  | options e order =>
    simp only [Expression.unordered]
    congr 1
    funext x
    rw [inAnyOrder_perm (order.map _)]
  | conjunct before after _ ih =>
    rw [Expression.unordered, Expression.unordered, unorderedAll_replace before after ih]
  | disjunct before after _ ih =>
    rw [Expression.unordered, Expression.unordered, unorderedAll_replace before after ih]
  | negated _ ih => rw [Expression.unordered, Expression.unordered, ih]
  | left c r step ih => rw [Expression.unordered, Expression.unordered, ih, step.declaredType]
  | right c l step ih => rw [Expression.unordered, Expression.unordered, ih, step.declaredType]
  | value os step ih => rw [Expression.unordered, Expression.unordered, ih, step.declaredType]

theorem unordered_of_permutes (h : ReflTransGen Permutes e e') (f : Facts) :
    e.unordered f = e'.unordered f := by
  induction h with
  | refl => rfl
  | tail _ step ih => exact ih.trans (step.unordered f)

theorem missingFacts_of_permutes (h : ReflTransGen Permutes e e') (f : Facts) :
    (e.missingFacts f).Perm (e'.missingFacts f) := by
  have named : e.names.Perm e'.names := by
    induction h with
    | refl => exact .refl _
    | tail _ step ih => exact ih.trans step.names
  exact (distinct_perm named).filter _

/-- Two orders that both come to a truth value come to the same. -/
theorem eq_of_permutes (h : ReflTransGen Permutes e e') {b b' : Bool}
    (held : e.holds f = .ok b) (held' : e'.holds f = .ok b') : b = b' := by
  have same := unordered_of_permutes h f
  rw [(agrees f e).1 b held, (agrees f e').1 b' held'] at same
  cases same
  rfl

end Steps

/-- The order of operands and options matters only through errors. However those of an expression
are rearranged, at any depth, the same facts are missing, up to their order; and where none is, the
truth values are the same, unless one of the two evaluations fails. -/
theorem order_matters_only_through_errors (permuted : ReflTransGen Permutes e e') (f : Facts) :
    (e.missingFacts f).Perm (e'.missingFacts f) ∧
    ((∃ ns ns', e.evaluate f = .ok (.missing ns) ∧ e'.evaluate f = .ok (.missing ns') ∧
        ns.Perm ns') ∨
      (∃ b, e.evaluate f = .ok (.value b) ∧ e'.evaluate f = .ok (.value b)) ∨
      (∃ x y, e.evaluate f = .error x ∧ e'.evaluate f = .error y) ∨
      (∃ b x, e.evaluate f = .ok (.value b) ∧ e'.evaluate f = .error x) ∨
      ∃ b x, e.evaluate f = .error x ∧ e'.evaluate f = .ok (.value b)) := by
  have missing := missingFacts_of_permutes permuted f
  refine ⟨missing, ?_⟩
  by_cases complete : e.missingFacts f = []
  · have complete' : e'.missingFacts f = [] := by
      rw [complete] at missing
      exact missing.nil_eq.symm
    rw [evaluate_of_complete complete, evaluate_of_complete complete']
    cases held : e.holds f with
    | error x =>
      cases held' : e'.holds f with
      | error y => exact .inr (.inr (.inl ⟨x, y, rfl, rfl⟩))
      | ok b => exact .inr (.inr (.inr (.inr ⟨b, x, rfl, rfl⟩)))
    | ok b =>
      cases held' : e'.holds f with
      | error x => exact .inr (.inr (.inr (.inl ⟨b, x, rfl, rfl⟩)))
      | ok b' =>
        rw [eq_of_permutes permuted held held']
        exact .inr (.inl ⟨b', rfl, rfl⟩)
  · have lacking : e'.missingFacts f ≠ [] := by
      intro complete'
      rw [complete'] at missing
      exact complete missing.eq_nil
    exact .inl ⟨_, _, evaluate_of_missing complete, evaluate_of_missing lacking, missing⟩

def unsupported : Expression :=
  not (or [var "sponsor" none, member (var "salary" (some .number)) [.number 38700, .number 45000]])

def unsupportedBySalary : Expression :=
  not (or [member (var "salary" (some .number)) [.number 45000, .number 38700], var "sponsor" none])

def undisclosed : Facts := ⟨[("sponsor", some (.bool true)), ("salary", some (.text "withheld"))]⟩

/-- The sponsor decides before the salary is looked at, and after it no more. -/
theorem order_matters_only_through_errors_salary :
    ReflTransGen Permutes unsupported unsupportedBySalary ∧
    unsupported.evaluate undisclosed = .ok (.value false) ∧
    unsupportedBySalary.evaluate undisclosed ≠ .ok (.value false) ∧
    ∃ x, unsupportedBySalary.evaluate undisclosed = .error x := by
  have bands : Permutes unsupported (not (or [var "sponsor" none,
      member (var "salary" (some .number)) [.number 45000, .number 38700]])) :=
    .negated (.disjunct [_] [] (.options _ (.swap ..)))
  have permuted : ReflTransGen Permutes unsupported unsupportedBySalary :=
    .tail (.single bands) (.negated (.disjunction (.swap ..)))
  have sponsored : unsupported.evaluate undisclosed = .ok (.value false) := by decide +kernel
  have other : unsupportedBySalary.evaluate undisclosed ≠ .ok (.value false) := by decide +kernel
  refine ⟨permuted, sponsored, other, ?_⟩
  obtain ⟨-, missing | ⟨b, value, value'⟩ | failed | ⟨b, x, -, failed⟩ | failed⟩ :=
    order_matters_only_through_errors permuted undisclosed
  · obtain ⟨_, _, lacking, -⟩ := missing
    cases sponsored.symm.trans lacking
  · exact absurd (value'.trans (value.symm.trans sponsored)) other
  · obtain ⟨_, y, -, failed⟩ := failed
    exact ⟨y, failed⟩
  · exact ⟨x, failed⟩
  · obtain ⟨_, _, failed, -⟩ := failed
    cases sponsored.symm.trans failed

end Expression
end VisaEligibility
