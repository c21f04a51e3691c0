import VisaEligibility.Proofs.Expression.Acceptance
import VisaEligibility.Proofs.Expression.Raising
/-!
The one failure of an evaluation that is no error of evaluation: writing an invalid instant. A
reference declared as a string writes the fact it names, and a comparison with such a reference
writes the fact on its other side.
-/
set_option autoImplicit false

namespace VisaEligibility

open EvaluationError

namespace Scalar

variable {c : Comparison} {l r v : Scalar} {x : EvaluationError}

theorem coerce_eq_invalidTime {t : ScalarKind} :
    v.coerce t = .error .invalidTime ↔ t = .string ∧ v = date .invalid := by
  constructor
  · intro h
    rcases error_of_coerce h with ⟨other, -⟩ | ⟨-, type, value⟩
    · cases other
    · exact ⟨type, value⟩
  · rintro ⟨rfl, rfl⟩
    rfl

theorem compare_eq_invalidTime {t : Option ScalarKind} : compare c l r t = .error .invalidTime ↔
    t = some .string ∧ (l = date .invalid ∨ r = date .invalid) := by
  constructor
  · intro h
    rcases error_of_compare h with uncomparable | ⟨k, rfl, left | right⟩
    · cases uncomparable
    · obtain ⟨rfl, invalid⟩ := coerce_eq_invalidTime.1 left
      exact ⟨rfl, .inl invalid⟩
    · obtain ⟨rfl, invalid⟩ := coerce_eq_invalidTime.1 right
      exact ⟨rfl, .inr invalid⟩
  · rintro ⟨rfl, left | right⟩
    · subst left
      rfl
    · simp only [compare, bind_eq_error, coerce_eq_invalidTime]
      cases hl : l.coerce .string with
      | ok a => exact .inr ⟨a, rfl, .inl ⟨trivial, right⟩⟩
      | error x =>
        rcases error_of_coerce hl with ⟨-, other⟩ | ⟨-, -, left⟩
        · exact absurd rfl other
        · exact .inl ⟨trivial, left⟩

theorem isValid_of_toInstant? {d : Instant} (h : v.toInstant? = some d) : d.isValid = true := by
  cases v with
  | date a =>
    simp only [toInstant?, Option.ite_none_right_eq_some, Option.some.injEq] at h
    exact h.2 ▸ h.1
  | text s =>
    simp only [toInstant?, Option.ite_none_right_eq_some, Option.ite_none_left_eq_some,
      Option.some.injEq] at h
    exact h.2.2 ▸ h.2.1
  | _ => cases h

theorem coerce_ne_invalid {t : ScalarKind} : v.coerce t ≠ .ok (date .invalid) := by
  intro h
  cases t with
  | number => cases hv : v.toNumber? <;> simp [coerce, hv] at h
  | boolean => cases hv : v.toBool? <;> simp [coerce, hv] at h
  | string =>
    cases v with
    | date d => cases d <;> cases h
    | _ => cases h
  | date =>
    cases hv : v.toInstant? with
    | none => simp [coerce, hv] at h
    | some d =>
      simp only [coerce, hv, Option.map_some, Option.elim_some, Except.ok.injEq, date.injEq] at h
      have valid := isValid_of_toInstant? hv
      rw [h] at valid
      cases valid

end Scalar

namespace Expression

def IsDated : Expression → Prop
  | literal v => v ≠ .date .invalid
  | member _ os => ∀ o ∈ os, o ≠ .date .invalid
  | _ => True

def Dated (e : Expression) : Prop := ∀ node ∈ e.nodes, node.IsDated

/-- Evaluating the node writes an invalid instant: a fact that is declared a string, or one that is
compared with such a fact. -/
inductive WritesInvalid (f : Facts) : Expression → Prop where
  | reference {n : String} (invalid : f.get? n = some (.date .invalid)) :
      WritesInvalid f (var n (some .string))
  | left {c : Comparison} {m n : String} (invalid : f.get? m = some (.date .invalid))
      (known : f.get? n ≠ none) :
      WritesInvalid f (compare c (var m none) (var n (some .string)))
  | right {c : Comparison} {m n : String} (known : f.get? m ≠ none)
      (invalid : f.get? n = some (.date .invalid)) :
      WritesInvalid f (compare c (var m (some .string)) (var n none))

variable {f : Facts} {x : EvaluationError} {e node : Expression} {n : String}

theorem dated_of_isWellFormed (h : e.IsWellFormed) : e.Dated := by
  intro node hn
  have sound := h node hn
  cases node with
  | literal v =>
    rintro rfl
    cases sound
  | member e os =>
    rintro o ho rfl
    cases sound _ ho
  | _ => trivial

theorem Dated.self (h : e.Dated) : e.IsDated := h e (self_mem_nodes e)

theorem Dated.child (h : e.Dated) {c : Expression} (hc : c ∈ e.children) : c.Dated :=
  fun node hn => h node (mem_nodes_of_child hc hn)

theorem Dated.reached (h : e.Dated) (reached : Reaches f e node) : node.Dated := by
  induction reached with
  | self e => exact h
  | under split _ _ ih => exact ih (h.child (mem_of_split split))

theorem fetch_invalid (h : f.get? n = some (.date .invalid)) :
    fetch f n none = .ok (.date .invalid) ∧ fetch f n (some .string) = .error .invalidTime := by
  rw [fetch, fetch, h]
  exact ⟨rfl, rfl⟩

theorem fetch_declared (known : f.get? n ≠ none) :
    fetch f n (some .string) = .error .invalidTime ∨ ∃ s, fetch f n (some .string) = .ok s := by
  obtain ⟨v, hv⟩ := Option.ne_none_iff_exists'.1 known
  have fetched : fetch f n (some .string) = v.coerce .string := by rw [fetch, hv]
  rw [fetched]
  cases hc : v.coerce .string with
  | ok s => exact .inr ⟨s, rfl⟩
  | error x =>
    rcases Scalar.error_of_coerce hc with ⟨-, other⟩ | ⟨rfl, -, -⟩
    · exact absurd rfl other
    · exact .inl rfl

theorem WritesInvalid.scalar (h : node.WritesInvalid f) :
    node.scalar f = .error .invalidTime := by
  cases h with
  | reference invalid => exact (fetch_invalid invalid).2
  | left invalid known =>
    simp only [Expression.scalar, bind_eq_error]
    refine .inr ⟨_, (fetch_invalid invalid).1, ?_⟩
    rcases fetch_declared known with failed | ⟨s, fetched⟩
    · exact .inl failed
    · exact .inr ⟨s, fetched, .inl (Scalar.compare_eq_invalidTime.2 ⟨rfl, .inl rfl⟩)⟩
  | right known invalid =>
    simp only [Expression.scalar, bind_eq_error]
    rcases fetch_declared known with failed | ⟨s, fetched⟩
    · exact .inl failed
    · exact .inr ⟨s, fetched, .inr ⟨_, (fetch_invalid invalid).1,
        .inl (Scalar.compare_eq_invalidTime.2 ⟨rfl, .inr rfl⟩)⟩⟩

theorem fetch_eq_invalidTime {t : Option ScalarKind} :
    fetch f n t = .error .invalidTime ↔ t = some .string ∧ f.get? n = some (.date .invalid) := by
  cases hv : f.get? n with
  | none => simp [fetch, hv]
  | some v => cases t <;> simp [fetch, hv, Scalar.coerce_eq_invalidTime]

theorem reference_of_scalar (hd : e.IsDated) (h : e.scalar f = .ok (.date .invalid)) :
    ∃ n, e = var n none ∧ f.get? n = some (.date .invalid) := by
  cases e with
  | var n t =>
    rw [scalar, fetch] at h
    split at h
    · cases h
    · rename_i v known
      cases t with
      | none =>
        cases h
        exact ⟨n, rfl, known⟩
      | some t => exact absurd h Scalar.coerce_ne_invalid
  | literal v =>
    cases h
    exact absurd rfl hd
  | _ =>
    rw [scalar_eq_holds (by simp) (by simp)] at h
    simp only [Except.map] at h
    split at h <;> cases h

theorem known_of_scalar {t : Option ScalarKind} {v : Scalar} (h : (var n t).scalar f = .ok v) :
    f.get? n ≠ none := by
  intro absent
  rw [scalar, fetch, absent] at h
  cases h

theorem declared_eq_some {t : ScalarKind} (h : e.declaredType = some t) :
    ∃ n, e = var n (some t) := by
  cases e <;> simp_all [declaredType]

theorem writesInvalid_of_raises (hd : node.Dated) (h : node.Raises f .invalidTime) :
    node.WritesInvalid f := by
  cases node with
  | var n t =>
    obtain ⟨rfl, invalid⟩ := fetch_eq_invalidTime.1 h
    exact .reference invalid
  | compare c l r =>
    obtain ⟨a, b, ha, hb, failed⟩ := h
    have left : l.IsDated := (hd.child List.mem_cons_self).self
    have right : r.IsDated := (hd.child (List.mem_cons_of_mem l List.mem_cons_self)).self
    obtain ⟨type, rfl | rfl⟩ := Scalar.compare_eq_invalidTime.1 failed
    · obtain ⟨m, rfl, invalid⟩ := reference_of_scalar left ha
      obtain ⟨n, rfl⟩ := declared_eq_some (e := r) type
      exact .left invalid (known_of_scalar hb)
    · obtain ⟨n, rfl, invalid⟩ := reference_of_scalar right hb
      have declared : l.declaredType = some .string := by
        cases hl : l.declaredType <;> simp_all [declaredType]
      obtain ⟨m, rfl⟩ := declared_eq_some declared
      exact .right (known_of_scalar ha) invalid
  | member e os =>
    obtain ⟨v, hv, failed⟩ := h
    obtain ⟨o, ho, compared⟩ := isMember_eq_error failed
    obtain ⟨type, rfl | option⟩ := Scalar.compare_eq_invalidTime.1 compared
    · obtain ⟨n, rfl, -⟩ := reference_of_scalar (hd.child List.mem_cons_self).self hv
      cases type
    · exact absurd option (hd.self o ho)
  | _ => cases h

/-- An evaluation fails by writing an invalid instant exactly if it comes to a node that does. -/
theorem holds_eq_invalidTime (hd : e.Dated) :
    e.holds f = .error .invalidTime ↔ ∃ node, Reaches f e node ∧ node.WritesInvalid f := by
  rw [(error_iff_meets (x := .invalidTime) nofun e).1]
  constructor
  · rintro ⟨node, reached, raised⟩
    exact ⟨node, reached, writesInvalid_of_raises (hd.reached reached) raised⟩
  · rintro ⟨node, reached, writes⟩
    obtain ⟨inner, within, raised⟩ :=
      (error_iff_meets (x := .invalidTime) nofun node).2.1 writes.scalar
    exact ⟨inner, reached.trans within, raised⟩

theorem WritesInvalid.not_dated (h : node.WritesInvalid f) : ¬f.Dated := by
  intro dated
  cases h with
  | reference invalid => exact dated _ invalid
  | left invalid _ => exact dated _ invalid
  | right _ invalid => exact dated _ invalid

theorem kind_of_ne_invalidTime (hx : x ≠ .invalidTime) : x.toFailure.kind = .evaluation := by
  cases x with
  | invalidTime => exact absurd rfl hx
  | _ => rfl

theorem kind_of_dated (he : e.Dated) (hf : f.Dated) (h : e.evaluate f = .error x) :
    x.toFailure.kind = .evaluation := by
  refine kind_of_ne_invalidTime ?_
  rintro rfl
  obtain ⟨node, -, writes⟩ := (holds_eq_invalidTime he).1 (evaluate_eq_error.1 h).2
  exact writes.not_dated hf

/-- What an accepted expression fails by is an error of the evaluation, except for the failure of
writing an invalid instant. That one is met exactly if no fact is missing and the evaluation comes
to a reference declared as a string whose fact is the invalid instant, or to a comparison of such a
reference with one; never where all instants among the facts are valid. -/
theorem only_invalid_instants_escape {raw : Value} (h : ofValue raw = .ok e) (f : Facts) :
    (∀ x, e.evaluate f = .error x →
      x.toFailure.kind = .evaluation ∨ x.toFailure = .invalidTime) ∧
    (e.evaluate f = .error .invalidTime ↔
      (∀ n ∈ e.names, f.has n = true) ∧ ∃ node, Reaches f e node ∧ node.WritesInvalid f) ∧
    (f.Dated → ∀ x, e.evaluate f = .error x → x.toFailure.kind = .evaluation) := by
  have dated : e.Dated := dated_of_isWellFormed (isWellFormed_of_read e (ofValue_eq_ok.1 h).2)
  refine ⟨fun x _ => ?_, ?_, fun hf x hx => kind_of_dated dated hf hx⟩
  · by_cases hx : x = .invalidTime
    · subst hx
      exact .inr rfl
    · exact .inl (kind_of_ne_invalidTime hx)
  · rw [evaluate_eq_error, holds_eq_invalidTime dated]

def expiryAsText : Expression :=
  compare .eq (var "passport_expiry" (some .string)) (literal (.text "2030-01-01"))

def invalidExpiry : Facts := ⟨[("passport_expiry", some (.date .invalid))]⟩

theorem accepted_expiryAsText : ofValue expiryAsText.toValue = .ok expiryAsText := by
  have formed : expiryAsText.IsWellFormed :=
    isWellFormed_compare.2 ⟨by simp [IsWellFormed, IsSound], by
      simp [IsWellFormed, IsSound, Scalar.isStorable]⟩
  exact (ofValue_toValue_eq_ok formed).2 ⟨by decide, rfl⟩

theorem only_invalid_instants_escape_expiry :
    ofValue expiryAsText.toValue = .ok expiryAsText ∧
    expiryAsText.evaluate invalidExpiry = .error .invalidTime ∧ ¬invalidExpiry.Dated := by
  obtain ⟨-, written, dated⟩ := only_invalid_instants_escape accepted_expiryAsText invalidExpiry
  have failed : expiryAsText.evaluate invalidExpiry = .error .invalidTime := by
    have split : expiryAsText.children =
        [] ++ var "passport_expiry" (some .string) :: [literal (.text "2030-01-01")] := rfl
    exact written.2 ⟨by decide +kernel, _, .under split nofun (.self _),
      .reference (by decide +kernel)⟩
  exact ⟨accepted_expiryAsText, failed, fun hf => nomatch dated hf _ failed⟩

/-- The invalid expiry is a fact with a value, and the failure is none of the evaluation. -/
theorem invalid_expiry_escapes :
    ofValue expiryAsText.toValue = .ok expiryAsText ∧ invalidExpiry.Complete ∧
    ∃ x, expiryAsText.evaluate invalidExpiry = .error x ∧ x.toFailure.kind ≠ .evaluation := by
  refine ⟨accepted_expiryAsText, ?_, .invalidTime, by decide +kernel, by decide⟩
  intro name known
  have same : "passport_expiry" = name := by
    simpa [Facts.has, Entries.has, invalidExpiry] using known
  rw [← same]
  decide +kernel

end Expression
end VisaEligibility
