import Mathlib.Logic.Relation
import VisaEligibility.Proofs.Expression.InvalidInstants
/-!
Negations pushed inward. Where an expression stands for a truth value, a negated connective becomes
the other connective of the negated operands, a double negation goes, and a negated comparison
becomes the complementary one. No such step changes what an evaluation comes to, and they lead to an
expression that allows none.
-/
set_option autoImplicit false

namespace VisaEligibility.Expression

open EvaluationError Relation

/-- One negation is pushed inward, where a truth value is asked for: at the top, or within operands
of connectives and negations. -/
inductive Pushes : Expression → Expression → Prop where
  | double (e : Expression) : Pushes (not (not e)) e
  | conjunction (es : List Expression) : Pushes (not (and es)) (or (es.map not))
  | disjunction (es : List Expression) : Pushes (not (or es)) (and (es.map not))
  | comparison (c : Comparison) (l r : Expression) :
      Pushes (not (compare c l r)) (compare c.complement l r)
  | negated {e e' : Expression} (step : Pushes e e') : Pushes (not e) (not e')
  | conjunct {e e' : Expression} (before after : List Expression) (step : Pushes e e') :
      Pushes (and (before ++ e :: after)) (and (before ++ e' :: after))
  | disjunct {e e' : Expression} (before after : List Expression) (step : Pushes e e') :
      Pushes (or (before ++ e :: after)) (or (before ++ e' :: after))

def signed (negated : Bool) (e : Expression) : Expression := if negated then not e else e

mutual

/-- An expression, or its negation, with the negations as far inward as they go. -/
def pushed (negated : Bool) : Expression → Expression
  | var n t => signed negated (var n t)
  | literal v => signed negated (literal v)
  | compare c l r => compare (if negated then c.complement else c) l r
  | and es => if negated then or (pushedAll true es) else and (pushedAll false es)
  | or es => if negated then and (pushedAll true es) else or (pushedAll false es)
  | not e => e.pushed !negated
  | member e os => signed negated (member e os)

def pushedAll (negated : Bool) : List Expression → List Expression
  | [] => []
  | e :: es => e.pushed negated :: pushedAll negated es

end

/-- The negation normal form of an expression that stands for a truth value. -/
def negationNormal (e : Expression) : Expression := e.pushed false

variable {f : Facts} {x : EvaluationError} {e e' : Expression} {es : List Expression}

theorem pushedAll_eq_map (b : Bool) (es : List Expression) :
    pushedAll b es = es.map (pushed b) := by
  induction es with
  | nil => rfl
  | cons e es ih => rw [pushedAll, ih, List.map_cons]

section Steps

theorem namesOf_map_not (es : List Expression) : namesOf (es.map not) = namesOf es := by
  induction es with
  | nil => rfl
  | cons e es ih => rw [List.map_cons, namesOf, namesOf, ih, names]

theorem Pushes.names (h : Pushes e e') : e'.names = e.names := by
  induction h with
  | double e => rfl
  | conjunction es => exact namesOf_map_not es
  | disjunction es => exact namesOf_map_not es
  | comparison c l r => rfl
  | negated _ ih => exact ih
  | conjunct before after _ ih => simp [Expression.names, namesOf_eq_flatMap, ih]
  | disjunct before after _ ih => simp [Expression.names, namesOf_eq_flatMap, ih]

theorem holds_not (f : Facts) (e : Expression) : (not e).holds f = (e.holds f).map (!·) := by
  rw [holds]
  cases e.holds f <;> rfl

section Connectives

variable {go : Bool} {run dual : List Expression → Except EvaluationError Bool}

theorem RunsOn.map_not (h : RunsOn f go run) (h' : RunsOn f (!go) dual) (es : List Expression) :
    dual (es.map not) = (run es).map (!·) := by
  induction es with
  | nil =>
    rw [List.map_nil, h.nil, h'.nil]
    rfl
  | cons e es ih =>
    rw [List.map_cons, h.cons, h'.cons, holds_not, ih]
    cases e.holds f with
    | error x => rfl
    | ok b => cases b <;> cases go <;> rfl

theorem RunsOn.unworded (h : RunsOn f go run) (before after : List Expression)
    (same : unworded (e'.holds f) = unworded (e.holds f)) :
    unworded (run (before ++ e' :: after)) = unworded (run (before ++ e :: after)) := by
  induction before with
  | nil => rw [List.nil_append, List.nil_append, h.cons, h.cons, unworded_bind, unworded_bind, same]
  | cons b before ih =>
    rw [List.cons_append, List.cons_append, h.cons, h.cons, unworded_bind, unworded_bind]
    congr 1
    funext held
    split
    · exact ih
    · rfl

end Connectives

theorem unworded_complement (c : Comparison) (l r : Expression) :
    unworded ((compare c.complement l r).holds f) =
      (unworded ((compare c l r).holds f)).map (!·) := by
  rw [holds, holds]
  cases l.scalar f with
  | error x => rfl
  | ok a =>
    cases r.scalar f with
    | error x => rfl
    | ok b => exact Scalar.unworded_compare_complement c a b _

theorem Pushes.holds (h : Pushes e e') (f : Facts) :
    unworded (e'.holds f) = unworded (e.holds f) := by
  induction h with
  | double e =>
    rw [holds_not, holds_not]
    cases e.holds f with
    | error x => rfl
    | ok b => exact congrArg Except.ok (Bool.not_not b).symm
  | conjunction es =>
    rw [Expression.holds, (runsOn_allHold f).map_not (runsOn_someHolds f), holds_not,
      Expression.holds]
  | disjunction es =>
    rw [Expression.holds, (runsOn_someHolds f).map_not (runsOn_allHold f), holds_not,
      Expression.holds]
  | comparison c l r => rw [unworded_complement, holds_not, unworded_map]
  | negated _ ih => rw [holds_not, holds_not, unworded_map, unworded_map, ih]
  | conjunct before after _ ih =>
    rw [Expression.holds, Expression.holds, (runsOn_allHold f).unworded before after ih]
  | disjunct before after _ ih =>
    rw [Expression.holds, Expression.holds, (runsOn_someHolds f).unworded before after ih]

theorem Pushes.evaluate (h : Pushes e e') (f : Facts) :
    unworded (e'.evaluate f) = unworded (e.evaluate f) := by
  have missing : e'.missingFacts f = e.missingFacts f := by
    rw [missingFacts, missingFacts, factNames, factNames, h.names]
  unfold Expression.evaluate
  rw [missing]
  split
  · rw [unworded_map, unworded_map, h.holds]
  · rfl

theorem evaluate_of_pushes (h : ReflTransGen Pushes e e') (f : Facts) :
    unworded (e'.evaluate f) = unworded (e.evaluate f) := by
  induction h with
  | refl => rfl
  | tail _ step ih => exact (step.evaluate f).trans ih

end Steps

section NormalForm

theorem pushes_operands (connect : List Expression → Expression)
    {g h : Expression → Expression}
    (within : ∀ before after e e', Pushes e e' →
      Pushes (connect (before ++ e :: after)) (connect (before ++ e' :: after)))
    (each : ∀ e ∈ es, ReflTransGen Pushes (g e) (h e)) :
    ReflTransGen Pushes (connect (es.map g)) (connect (es.map h)) := by
  have whole (before : List Expression) :
      ReflTransGen Pushes (connect (before ++ es.map g)) (connect (before ++ es.map h)) := by
    induction es generalizing before with
    | nil => exact .refl
    | cons e es ih =>
      obtain ⟨first, others⟩ := List.forall_mem_cons.1 each
      have here : ReflTransGen Pushes (connect (before ++ g e :: es.map g))
          (connect (before ++ h e :: es.map g)) :=
        first.lift (fun e => connect (before ++ e :: es.map g)) fun _ _ => within before _ _ _
      have rest := ih others (before ++ [h e])
      rw [List.append_assoc, List.append_assoc] at rest
      exact here.trans rest
  exact whole []

theorem pushes_pushed (b : Bool) (e : Expression) :
    ReflTransGen Pushes (signed b e) (e.pushed b) := by
  have unsigned (es : List Expression) : es.map (signed false) = es := List.map_id es
  induction e using induct generalizing b with
  | var n t => exact .refl
  | literal v => exact .refl
  | compare c l r =>
    cases b with
    | false => exact .refl
    | true => exact .single (.comparison c l r)
  | and es ih =>
    rw [pushed, pushedAll_eq_map, pushedAll_eq_map]
    cases b with
    | false =>
      have operands := pushes_operands and (fun _ _ _ _ => .conjunct _ _)
        fun e he => ih e he false
      rwa [unsigned] at operands
    | true =>
      exact .head (.conjunction es) (pushes_operands or (fun _ _ _ _ => .disjunct _ _)
        fun e he => ih e he true)
  | or es ih =>
    rw [pushed, pushedAll_eq_map, pushedAll_eq_map]
    cases b with
    | false =>
      have operands := pushes_operands or (fun _ _ _ _ => .disjunct _ _)
        fun e he => ih e he false
      rwa [unsigned] at operands
    | true =>
      exact .head (.disjunction es) (pushes_operands and (fun _ _ _ _ => .conjunct _ _)
        fun e he => ih e he true)
  | not e ih =>
    cases b with
    | false => exact ih true
    | true => exact .head (.double e) (ih false)
  | member e os => exact .refl

theorem exists_pushes_operand (h : Pushes (and es) e' ∨ Pushes (or es) e') :
    ∃ e ∈ es, ∃ x, Pushes e x := by
  rcases h with h | h
  · cases h with
    | conjunct before after step => exact ⟨_, List.mem_append_right _ List.mem_cons_self, _, step⟩
  · cases h with
    | disjunct before after step => exact ⟨_, List.mem_append_right _ List.mem_cons_self, _, step⟩

theorem not_pushes_operand {b : Bool} (each : ∀ e ∈ es, ∀ e', ¬Pushes (e.pushed b) e') :
    ¬Pushes (and (pushedAll b es)) e' ∧ ¬Pushes (or (pushedAll b es)) e' := by
  rw [pushedAll_eq_map]
  have none (h : ∃ e ∈ es.map (pushed b), ∃ x, Pushes e x) : False := by
    obtain ⟨_, operand, x, step⟩ := h
    obtain ⟨e, member, rfl⟩ := List.mem_map.1 operand
    exact each e member x step
  exact ⟨fun step => none (exists_pushes_operand (.inl step)),
    fun step => none (exists_pushes_operand (.inr step))⟩

theorem not_pushes_signed (b : Bool) (h : ∀ x, ¬Pushes (not e) x) : ¬Pushes (signed b e) e' := by
  cases b with
  | false => exact fun step => h _ (.negated step)
  | true => exact h e'

/-- Where negations are pushed all the way, none can be pushed further. -/
theorem not_pushes_pushed (b : Bool) (e e' : Expression) : ¬Pushes (e.pushed b) e' := by
  induction e using induct generalizing b e' with
  | var n t =>
    exact not_pushes_signed b fun _ step => by cases step with | negated step => cases step
  | literal v =>
    exact not_pushes_signed b fun _ step => by cases step with | negated step => cases step
  | compare c l r => nofun
  | and es ih =>
    have operands (b : Bool) := @not_pushes_operand e' es b fun e he => ih e he b
    cases b with
    | false => exact (operands false).1
    | true => exact (operands true).2
  | or es ih =>
    have operands (b : Bool) := @not_pushes_operand e' es b fun e he => ih e he b
    cases b with
    | false => exact (operands false).2
    | true => exact (operands true).1
  | not e ih => exact ih _ _
  | member e os _ =>
    exact not_pushes_signed b fun _ step => by cases step with | negated step => cases step

end NormalForm

/-- Pushing negations inward changes nothing. However many negations of an expression are pushed,
and in whatever order, an evaluation comes to the same truth value or lacks the same facts in the
same order, or both fail by an error of the evaluation, where all instants among facts and literals
are valid. The negation normal form is reached in this way and allows no further step. -/
theorem negations_pushed_inward (facts : f.Dated) (scalars : e.Dated) :
    ReflTransGen Pushes e e.negationNormal ∧ (∀ e', ¬Pushes e.negationNormal e') ∧
    ∀ e', ReflTransGen Pushes e e' →
      (∃ v, e.evaluate f = .ok v ∧ e'.evaluate f = .ok v) ∨
      ∃ x y, e.evaluate f = .error x ∧ e'.evaluate f = .error y ∧
        x.toFailure.kind = .evaluation ∧ y.toFailure.kind = .evaluation := by
  refine ⟨pushes_pushed false e, not_pushes_pushed false e, fun e' pushes => ?_⟩
  have same := evaluate_of_pushes pushes f
  cases he : e.evaluate f with
  | ok v =>
    rw [he] at same
    exact .inl ⟨v, rfl, unworded_eq_ok.1 same⟩
  | error x =>
    have own := kind_of_dated scalars facts he
    cases he' : e'.evaluate f with
    | ok v =>
      rw [he, he'] at same
      cases same
    | error y =>
      rw [he, he'] at same
      have kinds : y.isScoped = x.isScoped := Except.error.inj same
      refine .inr ⟨x, y, rfl, rfl, own, kind_toFailure.2 ?_⟩
      rw [kinds, kind_toFailure.1 own]

def lowOrSponsored : Expression :=
  not (and [compare .ge (var "salary" (some .number)) (literal (.number 38700)),
    not (var "sponsor" none)])

def unsponsored : Facts := ⟨[("salary", some (.text "45000")), ("sponsor", some (.bool false))]⟩

/-- The salary, given as a text, is not too low and the sponsor is denied, before and after. -/
theorem negations_pushed_inward_sponsor : unsponsored.Dated ∧ lowOrSponsored.Dated ∧
    lowOrSponsored.negationNormal =
      or [compare .lt (var "salary" (some .number)) (literal (.number 38700)),
        var "sponsor" none] ∧
    lowOrSponsored.negationNormal.evaluate unsponsored = .ok (.value false) := by
  have facts : unsponsored.Dated := by
    intro name
    by_cases salary : "salary" = name <;> by_cases sponsor : "sponsor" = name <;>
      simp [Facts.get?, Entries.get?, unsponsored, salary, sponsor]
  have scalars : lowOrSponsored.Dated := by
    simp [Dated, lowOrSponsored, IsDated]
  have denied : lowOrSponsored.evaluate unsponsored = .ok (.value false) := by
    decide +kernel
  obtain ⟨reached, -, same⟩ := negations_pushed_inward facts scalars
  refine ⟨facts, scalars, rfl, ?_⟩
  rcases same _ reached with ⟨v, before, after⟩ | ⟨x, y, failed, -⟩
  · rw [after, ← before, denied]
  · cases denied.symm.trans failed

end VisaEligibility.Expression
