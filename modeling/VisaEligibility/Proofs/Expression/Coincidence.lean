import VisaEligibility.Expression.Evaluation
import VisaEligibility.Proofs.Distinct
/-!
What the value of an expression depends on: the facts it refers to. Facts that are added to a case
leave an expression with a value as it is.
-/
set_option autoImplicit false

namespace VisaEligibility

namespace Facts

def AgreeOn (names : List String) (f g : Facts) : Prop :=
  ∀ n ∈ names, f.has n = g.has n ∧ f.get? n = g.get? n

def Includes (g f : Facts) : Prop := ∀ n, f.has n = true → g.has n = true ∧ g.get? n = f.get? n

variable {f g : Facts} {names more : List String}

theorem AgreeOn.mono (h : AgreeOn more f g) (sub : ∀ n ∈ names, n ∈ more) : AgreeOn names f g :=
  fun n hn => h n (sub n hn)

theorem Includes.absent (h : g.Includes f) {n : String} (hn : g.has n = false) :
    f.has n = false := by
  cases hf : f.has n with
  | false => rfl
  | true => exact absurd (h n hf).1 (by simp [hn])

theorem Includes.agreeOn (h : g.Includes f) (present : ∀ n ∈ names, f.has n = true) :
    AgreeOn names g f := by
  intro n hn
  obtain ⟨has, value⟩ := h n (present n hn)
  exact ⟨has.trans (present n hn).symm, value⟩

theorem put_includes {n : String} (h : f.has n = false) (x : Option Scalar) :
    (f.put n x).Includes f := by
  intro m hm
  have other : m ≠ n := by
    rintro rfl
    exact absurd hm (by simp [h])
  refine ⟨?_, ?_⟩
  · have known : Entries.has f.entries m = true := hm
    exact (Entries.has_put f.entries n m x).trans (by simp [known])
  · exact congrArg Option.join (Entries.get?_put_of_ne f.entries x other)

theorem has_put {n m : String} {x : Option Scalar} :
    (f.put n x).has m = (n == m || f.has m) := Entries.has_put f.entries n m x

end Facts

namespace Expression

/-- Induction in which a conjunction or disjunction may assume the statement of each operand. -/
@[elab_as_elim]
theorem induct {motive : Expression → Prop} (var : ∀ n t, motive (var n t))
    (literal : ∀ v, motive (literal v))
    (compare : ∀ c l r, motive l → motive r → motive (compare c l r))
    (and : ∀ es, (∀ e ∈ es, motive e) → motive (and es))
    (or : ∀ es, (∀ e ∈ es, motive e) → motive (or es))
    (not : ∀ e, motive e → motive (not e))
    (member : ∀ e os, motive e → motive (member e os)) (e : Expression) : motive e :=
  Expression.rec (motive_2 := fun es => ∀ e ∈ es, motive e) var literal compare and or not member
    (by simp) (fun e es he hes => List.forall_mem_cons.2 ⟨he, hes⟩) e

theorem namesOf_eq_flatMap (es : List Expression) : namesOf es = es.flatMap names := by
  induction es with
  | nil => rfl
  | cons e es ih => rw [namesOf, ih, List.flatMap_cons]

theorem mem_namesOf {es : List Expression} {e : Expression} {n : String} (he : e ∈ es)
    (hn : n ∈ e.names) : n ∈ namesOf es := by
  rw [namesOf_eq_flatMap]
  exact List.mem_flatMap.2 ⟨e, he, hn⟩

variable {f g : Facts} {es : List Expression} {e : Expression}

theorem fetch_congr {n : String} (h : f.get? n = g.get? n) (t : Option ScalarKind) :
    fetch f n t = fetch g n t := by
  rw [fetch, fetch, h]

theorem allHold_congr (h : ∀ e ∈ es, e.holds f = e.holds g) : allHold f es = allHold g es := by
  induction es with
  | nil => rfl
  | cons e es ih =>
    obtain ⟨he, hes⟩ := List.forall_mem_cons.1 h
    rw [allHold, allHold, he, ih hes]

theorem someHolds_congr (h : ∀ e ∈ es, e.holds f = e.holds g) :
    someHolds f es = someHolds g es := by
  induction es with
  | nil => rfl
  | cons e es ih =>
    obtain ⟨he, hes⟩ := List.forall_mem_cons.1 h
    rw [someHolds, someHolds, he, ih hes]

/-- Truth value and scalar of an expression are determined by the facts it refers to. Both go
through one induction, since a comparison needs the scalars of its sides and a scalar that is no fact
is a truth value. -/
theorem holds_and_scalar_congr (e : Expression) (h : ∀ n ∈ e.names, f.get? n = g.get? n) :
    e.holds f = e.holds g ∧ e.scalar f = e.scalar g := by
  induction e using induct with
  | var n t =>
    have fetched := fetch_congr (h n (by simp [names])) t
    exact ⟨by rw [holds, holds, fetched], by rw [scalar, scalar, fetched]⟩
  | literal v => exact ⟨rfl, rfl⟩
  | compare c l r ihl ihr =>
    have left := (ihl fun n hn => h n (by simp [names, hn])).2
    have right := (ihr fun n hn => h n (by simp [names, hn])).2
    exact ⟨by rw [holds, holds, left, right], by rw [scalar, scalar, left, right]⟩
  | and es ih =>
    have operands := allHold_congr fun e he => (ih e he fun n hn => h n (mem_namesOf he hn)).1
    exact ⟨by rw [holds, holds, operands], by rw [scalar, scalar, operands]⟩
  | or es ih =>
    have operands := someHolds_congr fun e he => (ih e he fun n hn => h n (mem_namesOf he hn)).1
    exact ⟨by rw [holds, holds, operands], by rw [scalar, scalar, operands]⟩
  | not e ih =>
    have operand := (ih h).1
    exact ⟨by rw [holds, holds, operand], by rw [scalar, scalar, operand]⟩
  | member e os ih =>
    have value := (ih h).2
    exact ⟨by rw [holds, holds, value], by rw [scalar, scalar, value]⟩

@[simp] theorem mem_missingFacts {n : String} :
    n ∈ e.missingFacts f ↔ n ∈ e.names ∧ f.has n = false := by
  simp [missingFacts, factNames]

theorem evaluate_of_complete (h : e.missingFacts f = []) :
    e.evaluate f = (e.holds f).map .value := by
  rw [evaluate, h]

theorem evaluate_of_missing (h : e.missingFacts f ≠ []) :
    e.evaluate f = .ok (.missing (e.missingFacts f)) := by
  unfold evaluate
  split
  · contradiction
  · rfl

theorem evaluate_congr (h : Facts.AgreeOn e.names f g) : e.evaluate f = e.evaluate g := by
  have missing : e.missingFacts f = e.missingFacts g := by
    refine List.filter_congr fun n hn => ?_
    rw [(h n (mem_distinct.1 hn)).1]
  have value := (holds_and_scalar_congr e fun n hn => (h n hn).2).1
  rw [evaluate, evaluate, missing, value]

end Expression
end VisaEligibility
