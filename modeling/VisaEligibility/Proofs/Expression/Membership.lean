import VisaEligibility.Proofs.Expression.InvalidInstants
/-!
Connectives as truth values tried one after the other, and membership among options as a disjunction
of equalities. The one form looks at its value once and the other at each option; under a declared
type it is then coerced again, which leaves a coerced scalar as it is.
-/
set_option autoImplicit false

namespace VisaEligibility

open EvaluationError

namespace Facts

theorem has_of_get? {f : Facts} {n : String} {x : Scalar} (h : f.get? n = some x) :
    f.has n = true := by
  unfold get? Entries.get? at h
  cases found : f.entries.find? fun e => e.1 == n with
  | none => simp [found] at h
  | some e =>
    have named := List.find?_some found
    exact List.any_eq_true.2 ⟨e, List.mem_of_find?_eq_some found, named⟩

end Facts

namespace Scalar

variable {v w : Scalar} {t : ScalarKind}

theorem isFinite_of_toNumber? {x : Number} (h : v.toNumber? = some x) : x.isFinite = true := by
  cases v with
  | number a =>
    simp only [toNumber?, Option.ite_none_right_eq_some, Option.some.injEq] at h
    exact h.2 ▸ h.1
  | text s =>
    simp only [toNumber?, Option.ite_none_right_eq_some, Option.ite_none_left_eq_some,
      Option.some.injEq] at h
    exact h.2.2 ▸ h.2.1
  | _ => cases h

theorem coerce_of_coerced (h : v.coerce t = .ok w) : w.coerce t = .ok w := by
  cases t with
  | number =>
    cases hv : v.toNumber? with
    | none => simp [coerce, hv] at h
    | some x =>
      simp only [coerce, hv, Option.map_some, Option.elim_some, Except.ok.injEq] at h
      simp [← h, coerce, toNumber?, isFinite_of_toNumber? hv]
  | date =>
    cases hv : v.toInstant? with
    | none => simp [coerce, hv] at h
    | some d =>
      simp only [coerce, hv, Option.map_some, Option.elim_some, Except.ok.injEq] at h
      simp [← h, coerce, toInstant?, isValid_of_toInstant? hv]
  | boolean =>
    cases hv : v.toBool? with
    | none => simp [coerce, hv] at h
    | some b =>
      simp only [coerce, hv, Option.map_some, Option.elim_some, Except.ok.injEq] at h
      simp [← h, coerce, toBool?]
  | string =>
    cases v with
    | date d => cases d <;> cases h; rfl
    | _ => cases h; rfl

theorem coerce_bind_compare (c : Comparison) (v r : Scalar) (t : ScalarKind) :
    (v.coerce t >>= fun w => compare c w r (some t)) = compare c v r (some t) := by
  cases h : v.coerce t with
  | error x =>
    rw [compare, h]
    rfl
  | ok w =>
    change compare c w r (some t) = compare c v r (some t)
    rw [compare, compare, h, coerce_of_coerced h]

end Scalar

namespace Expression

/-- Truth values tried one after the other: the first decisive one ends it, as does a failure. -/
def inOrder (decisive : Bool) :
    List (Except EvaluationError Bool) → Except EvaluationError Bool
  | [] => .ok !decisive
  | x :: xs => x >>= fun b => if b = decisive then .ok decisive else inOrder decisive xs

variable {f : Facts} {e v : Expression} {es : List Expression} {os : List Scalar} {n : String}

section Connectives

theorem RunsOn.eq_inOrder {go : Bool} {run : List Expression → Except EvaluationError Bool}
    (h : RunsOn f go run) (es : List Expression) : run es = inOrder (!go) (es.map (holds f)) := by
  induction es with
  | nil => rw [h.nil, List.map_nil, inOrder, Bool.not_not]
  | cons e es ih =>
    rw [h.cons, List.map_cons, inOrder, ih]
    congr 1
    funext b
    cases b <;> cases go <;> rfl

theorem holds_and (f : Facts) (es : List Expression) :
    (and es).holds f = inOrder false (es.map (holds f)) := by
  rw [holds, (runsOn_allHold f).eq_inOrder]
  rfl

theorem holds_or (f : Facts) (es : List Expression) :
    (or es).holds f = inOrder true (es.map (holds f)) := by
  rw [holds, (runsOn_someHolds f).eq_inOrder]
  rfl

theorem isMember_eq_inOrder (x : Scalar) (t : Option ScalarKind) (os : List Scalar) :
    isMember x t os = inOrder true (os.map fun o => Scalar.compare .eq x o t) := by
  induction os with
  | nil => rfl
  | cons o os ih =>
    rw [isMember, List.map_cons, inOrder, ih]

theorem holds_member (f : Facts) (e : Expression) (os : List Scalar) : (member e os).holds f =
    e.scalar f >>= fun x => inOrder true (os.map fun o => Scalar.compare .eq x o e.declaredType) := by
  rw [holds]
  simp only [isMember_eq_inOrder]

/-- What all tries begin with may be done once, if there is a try at all. -/
theorem inOrder_map_bind {α β : Type} (decisive : Bool) (x : Except EvaluationError α)
    (k : β → α → Except EvaluationError Bool) {bs : List β} (some : bs ≠ []) :
    inOrder decisive (bs.map fun b => x >>= k b) =
      x >>= fun a => inOrder decisive (bs.map fun b => k b a) := by
  cases x with
  | ok a => rfl
  | error e =>
    obtain ⟨b, rest, rfl⟩ := List.exists_cons_of_ne_nil some
    rfl

end Connectives

def equals (v : Expression) (o : Scalar) : Expression := compare .eq v (literal o)

theorem holds_equals (f : Facts) (v : Expression) (o : Scalar) : (v.equals o).holds f =
    v.scalar f >>= fun x => Scalar.compare .eq x o v.declaredType := by
  have type : (v.declaredType.orElse fun _ => (literal o).declaredType) = v.declaredType := by
    cases v.declaredType <;> rfl
  rw [equals, holds, type]
  rfl

theorem distinct_namesOf_equals (v : Expression) (some : os ≠ []) :
    distinct (namesOf (os.map v.equals)) = distinct v.names := by
  obtain ⟨o, os, rfl⟩ := List.exists_cons_of_ne_nil some
  have known : ∀ n ∈ namesOf (os.map v.equals), n ∈ v.names := by
    simp [namesOf_eq_flatMap, equals, names]
  have first : (v.equals o).names = v.names := List.append_nil _
  have none : (distinct (namesOf (os.map v.equals))).filter (fun n => n ∉ v.names) = [] :=
    List.filter_eq_nil_iff.2 fun n hn => by simpa using known n (mem_distinct.1 hn)
  rw [List.map_cons, namesOf, first, distinct_append, none, List.append_nil]

theorem evaluate_of_alike {e' : Expression} (missing : e.missingFacts f = e'.missingFacts f)
    (held : e.holds f = e'.holds f) : e.evaluate f = e'.evaluate f := by
  rw [evaluate, evaluate, missing, held]

theorem evaluate_member (v : Expression) (some : os ≠ []) (f : Facts) :
    (member v os).evaluate f = (or (os.map v.equals)).evaluate f := by
  refine evaluate_of_alike ?_ ?_
  · rw [missingFacts, missingFacts, factNames, factNames, names, names,
      distinct_namesOf_equals v some]
  · rw [holds_member, holds_or, List.map_map,
      ← inOrder_map_bind true _ (fun o x => Scalar.compare .eq x o v.declaredType) some]
    congr 1
    exact List.map_congr_left fun o _ => (holds_equals f v o).symm

/-- A reference that is declared and known is present, and gives the coerced fact. -/
theorem scalar_declared {x : Scalar} (known : f.get? n = some x) (t : ScalarKind) :
    (var n (some t)).scalar f = x.coerce t := by
  rw [scalar, fetch, known]

theorem evaluate_equals_declared {x : Scalar} (known : f.get? n = some x) (t : ScalarKind)
    (o : Scalar) : ((var n (some t)).equals o).evaluate f =
      (Scalar.compare .eq x o (some t)).map .value := by
  have complete : ((var n (some t)).equals o).missingFacts f = [] := by
    simp [List.eq_nil_iff_forall_not_mem, equals, names, Facts.has_of_get? known]
  rw [evaluate_of_complete complete, holds_equals, scalar_declared known]
  exact congrArg (Except.map _) (Scalar.coerce_bind_compare .eq x o t)

/-- Membership among options is a disjunction of equalities: it lacks the same facts, has the same
truth value or fails by the same error as the equalities with the options tried in order. Without
options it fails as the value does and is false otherwise. Where the value is a fact under a
declared type, each equality comes to what comparing the fact as it is under that type does, and so
does each test of the coerced fact. -/
theorem membership_is_disjunction_of_equalities (v : Expression) (f : Facts) :
    (∀ os, os ≠ [] → (member v os).evaluate f = (or (os.map v.equals)).evaluate f) ∧
    (v.missingFacts f = [] →
      (member v []).evaluate f = (v.scalar f).map fun _ => .value false) ∧
    ∀ n t x, v = var n (some t) → f.get? n = some x → ∀ o,
      (v.equals o).evaluate f = (Scalar.compare .eq x o (some t)).map .value ∧
      ∀ y, v.scalar f = .ok y →
        Scalar.compare .eq y o v.declaredType = Scalar.compare .eq x o (some t) := by
  refine ⟨fun os some => evaluate_member v some f, fun complete => ?_, ?_⟩
  · rw [evaluate_of_complete (e := member v []) complete, holds_member]
    cases v.scalar f <;> rfl
  · rintro n t x rfl known o
    refine ⟨evaluate_equals_declared known t o, fun y resolved => ?_⟩
    rw [scalar_declared known] at resolved
    rw [← Scalar.coerce_bind_compare .eq x o t, resolved]
    rfl

def salaryAsNumber : Expression := var "salary" (some .number)

def statedSalary : Facts := ⟨[("salary", some (.text " 45000 "))]⟩

/-- The first option is passed, the second one spells the salary otherwise, and the third one would
fail. -/
theorem membership_is_disjunction_of_equalities_salary :
    salaryAsNumber.missingFacts statedSalary = [] ∧
    statedSalary.get? "salary" = some (.text " 45000 ") ∧
    salaryAsNumber.scalar statedSalary = .ok (.number 45000) ∧
    (or ([.number 30000, .text "4.5e4", .bool true].map salaryAsNumber.equals)).evaluate
      statedSalary = .ok (.value true) ∧
    (member salaryAsNumber []).evaluate statedSalary = .ok (.value false) ∧
    (salaryAsNumber.equals (.text "4.5e4")).evaluate statedSalary = .ok (.value true) ∧
    Scalar.compare .eq (.number 45000) (.bool true) salaryAsNumber.declaredType =
      .error (.notCoercible (.bool true) .number) := by
  have complete : salaryAsNumber.missingFacts statedSalary = [] := by decide +kernel
  have known : statedSalary.get? "salary" = some (.text " 45000 ") := by decide +kernel
  have coerced : salaryAsNumber.scalar statedSalary = .ok (.number 45000) := by decide +kernel
  obtain ⟨disjunction, without, declared⟩ :=
    membership_is_disjunction_of_equalities salaryAsNumber statedSalary
  refine ⟨complete, known, coerced, ?_, ?_, ?_, ?_⟩
  · rw [← disjunction _ (by simp)]
    decide +kernel
  · rw [without complete, coerced]
    rfl
  · rw [(declared _ _ _ rfl known _).1]
    decide +kernel
  · rw [(declared _ _ _ rfl known _).2 _ coerced]
    decide +kernel

end Expression
end VisaEligibility
