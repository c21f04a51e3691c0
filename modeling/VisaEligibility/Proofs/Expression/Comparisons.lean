import VisaEligibility.Expression.Comparing
import VisaEligibility.Proofs.Number.Order
import VisaEligibility.Proofs.Text.UnitOrder
/-!
Comparisons of two scalars taken together. Whatever the kinds and the declared type, the six
operators answer from one and the same relationship of the scalars, which is turned around when the
scalars are exchanged.
-/
set_option autoImplicit false

namespace VisaEligibility

namespace EvaluationError

theorem kind_toFailure {x : EvaluationError} :
    x.toFailure.kind = .evaluation ↔ x.isScoped = true := by
  cases x <;> simp [toFailure, isScoped, Failure.evaluation, Failure.application,
    Failure.invalidTime]

def isUncomparable : EvaluationError → Bool
  | notFinite _ => true
  | unorderedBooleans _ => true
  | unordered _ _ _ => true
  | _ => false

variable {α β : Type}

/-- An outcome without the wording of its error, of which it only says whether the error belongs to
the evaluation. -/
def unworded (x : Except EvaluationError α) : Except Bool α := x.mapError isScoped

@[simp] theorem unworded_ok (a : α) : unworded (.ok a) = .ok a := rfl

@[simp] theorem unworded_error (x : EvaluationError) :
    unworded (.error x : Except EvaluationError α) = .error x.isScoped := rfl

theorem unworded_bind (x : Except EvaluationError α) (k : α → Except EvaluationError β) :
    unworded (x >>= k) = unworded x >>= fun a => unworded (k a) := by
  cases x <;> rfl

theorem unworded_map (g : α → β) (x : Except EvaluationError α) :
    unworded (x.map g) = (unworded x).map g := by
  cases x <;> rfl

theorem unworded_eq_ok {x : Except EvaluationError α} {a : α} :
    unworded x = .ok a ↔ x = .ok a := by
  cases x <;> simp

theorem toOption_unworded (x : Except EvaluationError α) :
    (unworded x).toOption = x.toOption := by
  cases x <;> rfl

theorem bind_eq_error {x : Except EvaluationError α} {k : α → Except EvaluationError β}
    {e : EvaluationError} :
    (x >>= k) = .error e ↔ x = .error e ∨ ∃ a, x = .ok a ∧ k a = .error e := by
  cases x <;> simp [bind, Except.bind]

theorem map_eq_error {x : Except EvaluationError α} {g : α → β} {e : EvaluationError} :
    x.map g = .error e ↔ x = .error e := by
  cases x <;> simp [Except.map]

end EvaluationError

namespace Scalar

open EvaluationError

/-- What there is to say about two scalars: how they are ordered, only whether they are the same, or
nothing, through an error that belongs to the evaluation or not. -/
inductive Relationship where
  | ordered (order : Ordering)
  | likened (same : Bool)
  | refused (own : Bool)
deriving DecidableEq, Repr

namespace Relationship

def answer : Relationship → Comparison → Except Bool Bool
  | ordered o, c => .ok (c.holds o)
  | likened same, .eq => .ok same
  | likened same, .ne => .ok !same
  | likened _, _ => .error true
  | refused own, _ => .error own

def swap : Relationship → Relationship
  | ordered o => ordered o.swap
  | r => r

theorem answer_complement (r : Relationship) (c : Comparison) :
    r.answer c.complement = (r.answer c).map (!·) := by
  cases r with
  | ordered o => exact congrArg Except.ok (Comparison.holds_complement c o)
  | likened same => cases c <;> simp [answer, Comparison.complement, Except.map]
  | refused own => rfl

theorem answer_swapped (r : Relationship) (c : Comparison) :
    r.swap.answer c.swapped = r.answer c := by
  cases r with
  | ordered o => exact congrArg Except.ok (Comparison.holds_swapped c o)
  | likened same => cases c <;> rfl
  | refused own => rfl

theorem eq_ordered_of_answer {r : Relationship} {c : Comparison} {b : Bool}
    (hc : c ∈ [Comparison.lt, .le, .gt, .ge]) (h : r.answer c = .ok b) : ∃ o, r = ordered o := by
  cases r with
  | ordered o => exact ⟨o, rfl⟩
  | likened same =>
    cases c with
    | eq => simp at hc
    | ne => simp at hc
    | _ => cases h
  | refused own => cases h

end Relationship

def Mirrored (f g : Comparison → Except EvaluationError Bool) : Prop :=
  ∃ r : Relationship, ∀ c, unworded (f c) = r.answer c ∧ unworded (g c) = r.swap.answer c

variable {f g : Comparison → Except EvaluationError Bool}

theorem Mirrored.of_order (o : Ordering) :
    Mirrored (fun c => .ok (c.holds o)) fun c => .ok (c.holds o.swap) :=
  ⟨.ordered o, fun _ => ⟨rfl, rfl⟩⟩

theorem Mirrored.of_errors {e e' : Comparison → EvaluationError} {own : Bool}
    (he : ∀ c, (e c).isScoped = own) (he' : ∀ c, (e' c).isScoped = own) :
    Mirrored (fun c => .error (e c)) fun c => .error (e' c) :=
  ⟨.refused own, fun c => ⟨congrArg Except.error (he c), congrArg Except.error (he' c)⟩⟩

theorem mirrored_orderNumbers (a b : Number) :
    Mirrored (fun c => (orderNumbers a b).map c.holds) fun c => (orderNumbers b a).map c.holds := by
  unfold orderNumbers
  cases ha : a.isFinite with
  | false =>
    cases hb : b.isFinite <;> exact Mirrored.of_errors (fun _ => rfl) fun _ => rfl
  | true =>
    cases hb : b.isFinite with
    | false => exact Mirrored.of_errors (fun _ => rfl) fun _ => rfl
    | true =>
      obtain ⟨o, forth, back⟩ := Number.exists_order? ha hb
      rw [forth, back]
      exact Mirrored.of_order o

theorem mirrored_texts (s t : String) :
    Mirrored (fun c => .ok (c.holds (Text.unitOrder s t)))
      fun c => .ok (c.holds (Text.unitOrder t s)) := by
  have back : Text.unitOrder t s = (Text.unitOrder s t).swap := Std.OrientedCmp.eq_swap
  rw [back]
  exact Mirrored.of_order _

theorem mirrored_compareAlike (l r : Scalar) :
    Mirrored (fun c => compareAlike c l r) fun c => compareAlike c r l := by
  cases l with
  | number a =>
    cases r with
    | number b => exact mirrored_orderNumbers a b
    | _ => exact Mirrored.of_errors (fun _ => rfl) fun _ => rfl
  | text s =>
    cases r with
    | text t => exact mirrored_texts s t
    | _ => exact Mirrored.of_errors (fun _ => rfl) fun _ => rfl
  | bool a =>
    cases r with
    | bool b =>
      refine ⟨.likened (a == b), fun c => ?_⟩
      have same : (b == a) = (a == b) := BEq.comm
      cases c <;> simp [compareAlike, Relationship.answer, Relationship.swap, bne, same, isScoped]
    | _ => exact Mirrored.of_errors (fun _ => rfl) fun _ => rfl
  | date a =>
    cases r with
    | date b => exact mirrored_orderNumbers a.toNumber b.toNumber
    | _ => exact Mirrored.of_errors (fun _ => rfl) fun _ => rfl

theorem instants?_swap (l r : Scalar) : instants? r l = (instants? l r).map Prod.swap := by
  unfold instants?
  rw [Bool.or_comm]
  split
  · cases l.toInstant? <;> cases r.toInstant? <;> rfl
  · rfl

theorem numbers?_swap (l r : Scalar) : numbers? r l = (numbers? l r).map Prod.swap := by
  unfold numbers?
  cases l.toNumber? <;> cases r.toNumber? <;> rfl

theorem mirrored_compareUnlike (l r : Scalar) :
    Mirrored (fun c => compareUnlike c l r) fun c => compareUnlike c r l := by
  unfold compareUnlike
  rw [instants?_swap l r, numbers?_swap l r]
  cases instants? l r with
  | some p => exact mirrored_compareAlike (date p.1) (date p.2)
  | none =>
    cases numbers? l r with
    | some p => exact mirrored_orderNumbers p.1 p.2
    | none =>
      refine ⟨.likened (l.display == r.display), fun c => ?_⟩
      have same : (r.display == l.display) = (l.display == r.display) := BEq.comm
      cases c <;> simp [Relationship.answer, Relationship.swap, bne, same, isScoped]

theorem eq_of_elim_eq_error {o : Option Scalar} {x y : EvaluationError}
    (h : o.elim (.error y) Except.ok = .error x) : x = y := by
  cases o with
  | none => cases h; rfl
  | some v => cases h

theorem error_of_coerce {v : Scalar} {t : ScalarKind} {x : EvaluationError}
    (h : v.coerce t = .error x) :
    x = .notCoercible v t ∧ t ≠ .string ∨ x = .invalidTime ∧ t = .string ∧ v = date .invalid := by
  cases t with
  | number => exact .inl ⟨eq_of_elim_eq_error h, nofun⟩
  | date => exact .inl ⟨eq_of_elim_eq_error h, nofun⟩
  | boolean => exact .inl ⟨eq_of_elim_eq_error h, nofun⟩
  | string =>
    cases v with
    | date d =>
      cases d with
      | invalid => cases h; exact .inr ⟨rfl, rfl, rfl⟩
      | ofMillis ms => cases h
    | _ => cases h

theorem isScoped_of_coerce {v : Scalar} {t : ScalarKind} {x : EvaluationError}
    (h : v.coerce t = .error x) : x.isScoped = (t != .string) := by
  rcases error_of_coerce h with ⟨rfl, other⟩ | ⟨rfl, rfl, -⟩
  · exact (bne_iff_ne.2 other).symm
  · rfl

section Errors

variable {c : Comparison} {l r : Scalar} {x : EvaluationError}

theorem uncomparable_of_orderNumbers {a b : Number} (h : orderNumbers a b = .error x) :
    x.isUncomparable = true := by
  unfold orderNumbers at h
  split at h
  · cases h; rfl
  · split at h
    · cases h; rfl
    · cases h

theorem uncomparable_of_compareAlike (h : compareAlike c l r = .error x) :
    x.isUncomparable = true := by
  cases l with
  | number a =>
    cases r with
    | number b => exact uncomparable_of_orderNumbers (map_eq_error.1 h)
    | _ => cases h; rfl
  | date a =>
    cases r with
    | date b => exact uncomparable_of_orderNumbers (map_eq_error.1 h)
    | _ => cases h; rfl
  | text s => cases r <;> cases h <;> rfl
  | bool a =>
    cases r with
    | bool b => cases c <;> cases h <;> rfl
    | _ => cases h; rfl

theorem uncomparable_of_compareUnlike (h : compareUnlike c l r = .error x) :
    x.isUncomparable = true := by
  unfold compareUnlike at h
  split at h
  · exact uncomparable_of_compareAlike h
  · split at h
    · exact uncomparable_of_orderNumbers (map_eq_error.1 h)
    · cases c <;> cases h <;> rfl

theorem error_of_compare {t : Option ScalarKind} (h : compare c l r t = .error x) :
    x.isUncomparable = true ∨
      ∃ k, t = some k ∧ (l.coerce k = .error x ∨ r.coerce k = .error x) := by
  cases t with
  | none =>
    simp only [compare] at h
    split at h
    · exact .inl (uncomparable_of_compareAlike h)
    · exact .inl (uncomparable_of_compareUnlike h)
  | some k =>
    simp only [compare, bind_eq_error] at h
    rcases h with left | ⟨a, -, right | ⟨b, -, compared⟩⟩
    · exact .inr ⟨k, rfl, .inl left⟩
    · exact .inr ⟨k, rfl, .inr right⟩
    · exact .inl (uncomparable_of_compareAlike compared)

end Errors

theorem mirrored_compare (l r : Scalar) (t : Option ScalarKind) :
    Mirrored (fun c => compare c l r t) fun c => compare c r l t := by
  cases t with
  | none =>
    unfold compare
    by_cases same : l.kind = r.kind
    · simp only [same, if_true]
      exact mirrored_compareAlike l r
    · simp only [same, Ne.symm same, if_false]
      exact mirrored_compareUnlike l r
  | some t =>
    simp only [compare]
    cases hl : l.coerce t with
    | error x =>
      have own := isScoped_of_coerce hl
      cases hr : r.coerce t with
      | error y => exact Mirrored.of_errors (fun _ => own) fun _ => isScoped_of_coerce hr
      | ok b => exact Mirrored.of_errors (fun _ => own) fun _ => own
    | ok a =>
      cases hr : r.coerce t with
      | error y =>
        have own := isScoped_of_coerce hr
        exact Mirrored.of_errors (fun _ => own) fun _ => own
      | ok b => exact mirrored_compareAlike a b

theorem unworded_compare_complement (c : Comparison) (l r : Scalar) (t : Option ScalarKind) :
    unworded (compare c.complement l r t) = (unworded (compare c l r t)).map (!·) := by
  obtain ⟨rel, h⟩ := mirrored_compare l r t
  rw [(h c.complement).1, (h c).1, rel.answer_complement]

/-- The six operators are coherent on all scalars, under any declared type. An operator and its
complement both fail or give opposite answers; exchanging the scalars and mirroring the operator
changes nothing; and where one ordering operator answers, all six do and say which one of less, same
and more is the case. -/
theorem comparisons_coherent (l r : Scalar) (t : Option ScalarKind) :
    (∀ c, (compare c.complement l r t).toOption = (compare c l r t).toOption.map (!·)) ∧
    (∀ c : Comparison, (compare c.swapped r l t).toOption = (compare c l r t).toOption) ∧
    ∀ c ∈ [Comparison.lt, .le, .gt, .ge], ∀ b, compare c l r t = .ok b →
      ∃ less same more : Bool, [less, same, more].count true = 1 ∧
        compare .lt l r t = .ok less ∧ compare .eq l r t = .ok same ∧
        compare .gt l r t = .ok more ∧ compare .le l r t = .ok (less || same) ∧
        compare .ge l r t = .ok (more || same) ∧ compare .ne l r t = .ok !same := by
  obtain ⟨rel, h⟩ := mirrored_compare l r t
  refine ⟨fun c => ?_, fun c => ?_, fun c hc b hb => ?_⟩
  · rw [← toOption_unworded, ← toOption_unworded, (h c.complement).1, (h c).1,
      rel.answer_complement]
    cases rel.answer c <;> rfl
  · rw [← toOption_unworded, ← toOption_unworded, (h c.swapped).2, (h c).1, rel.answer_swapped]
  · have answered : rel.answer c = .ok b := (h c).1.symm.trans (congrArg unworded hb)
    obtain ⟨o, rfl⟩ := Relationship.eq_ordered_of_answer hc answered
    have every (c : Comparison) : compare c l r t = .ok (c.holds o) := unworded_eq_ok.1 (h c).1
    refine ⟨_, _, _, ?_, every .lt, every .eq, every .gt, (every .le).trans ?_,
      (every .ge).trans ?_, (every .ne).trans ?_⟩ <;> cases o <;> rfl

/-- A text that spells a number, against a smaller one. -/
theorem comparisons_coherent_spelled :
    (Comparison.gt ∈ [Comparison.lt, .le, .gt, .ge] ∧
      compare .gt (text "10") (number 9) none = .ok true) ∧
    ∃ less same more : Bool, [less, same, more].count true = 1 ∧
      compare .lt (text "10") (number 9) none = .ok less ∧
      compare .eq (text "10") (number 9) none = .ok same ∧
      compare .gt (text "10") (number 9) none = .ok more ∧
      compare .le (text "10") (number 9) none = .ok (less || same) ∧
      compare .ge (text "10") (number 9) none = .ok (more || same) ∧
      compare .ne (text "10") (number 9) none = .ok !same := by
  have ordering : Comparison.gt ∈ [Comparison.lt, .le, .gt, .ge] := by decide
  have more : compare .gt (text "10") (number 9) none = .ok true := by decide +kernel
  obtain ⟨-, -, whole⟩ := comparisons_coherent (text "10") (number 9) none
  exact ⟨⟨ordering, more⟩, whole .gt ordering true more⟩

end Scalar
end VisaEligibility
