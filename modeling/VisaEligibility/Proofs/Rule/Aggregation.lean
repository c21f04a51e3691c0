import Mathlib.Data.List.Forall2
import VisaEligibility.Proofs.Rule.MissingFacts
import VisaEligibility.Proofs.Rule.Unmet
/-!
What an evaluation of a rule version sums up. Each requirement has one evaluation and each of these
falls under one status, from which the counts and lists are taken; the order of the requirements
shows in the order of the lists and nowhere else.
-/
set_option autoImplicit false

namespace VisaEligibility

namespace Requirement

variable {q : Requirement} {f : Facts}

@[simp] theorem evaluate_code (q : Requirement) (f : Facts) : (q.evaluate f).code = q.code := by
  unfold evaluate
  cases Expression.ofValue q.expression with
  | error e => rfl
  | ok e =>
    dsimp only
    cases e.evaluate f with
    | error e => rfl
    | ok x => cases x <;> rfl

theorem exists_reason (h : (q.evaluate f).status = .error) :
    ∃ reason, (q.evaluate f).error = some reason := by
  unfold evaluate at h ⊢
  cases hq : Expression.ofValue q.expression with
  | error e => exact ⟨_, rfl⟩
  | ok e =>
    simp only [hq] at h ⊢
    cases he : e.evaluate f with
    | error e => exact ⟨_, rfl⟩
    | ok x =>
      rw [he] at h
      cases x with
      | value b => cases b <;> cases h
      | missing ns => cases h

end Requirement

def RequirementEvaluation.IsNamedBy (e : RequirementEvaluation) (warning : String) : Prop :=
  ∃ reason, e.error = some reason ∧
    warning = "Requirement " ++ e.code ++ " could not be evaluated: " ++ reason

namespace RuleEvaluation

def count (r : RuleEvaluation) (s : RequirementStatus) : Nat :=
  r.evaluations.countP (·.status == s)

/-- An evaluation of a version has one evaluation of each requirement and counts each once: among
those evaluated or among those that lack facts. Every requirement in error has one warning. -/
structure Accounts (v : RuleVersion) (f : Facts) (r : RuleEvaluation) : Prop where
  each : List.Forall₂ (fun q e => e = q.evaluate f ∧ e.code = q.code ∧ e.mandatory = q.mandatory)
    v.requirements r.evaluations
  passed : r.passed = r.count .passed
  evaluated : r.total = r.count .passed + r.count .failed + r.count .error
  lacking : r.requirementsWithMissingFacts.length = r.count .indeterminate
  whole : r.total + r.requirementsWithMissingFacts.length = v.requirements.length
  passed_le_total : r.passed ≤ r.total
  mandatory : r.mandatoryMissing.Sublist r.requirementsWithMissingFacts
  warned : v.requirements ≠ [] →
    List.Forall₂ RequirementEvaluation.IsNamedBy (r.evaluations.filter (·.status == .error))
      r.warnings
  unwarned : v.requirements = [] →
    r.warnings = ["Rule version " ++ v.id ++ " has no requirements"]

/-- Two evaluations that differ in nothing but the order of their lists. -/
structure SameUpToOrder (r s : RuleEvaluation) : Prop where
  version : r.ruleVersionId = s.ruleVersionId ∧ r.visaTypeId = s.visaTypeId ∧
    r.visaCode = s.visaCode
  outcome : r.outcome = s.outcome
  confidence : r.confidence = s.confidence
  passed : r.passed = s.passed
  total : r.total = s.total
  missingFacts : r.missingFacts.Perm s.missingFacts
  requirementsWithMissingFacts :
    r.requirementsWithMissingFacts.Perm s.requirementsWithMissingFacts
  mandatoryMissing : r.mandatoryMissing.Perm s.mandatoryMissing
  evaluations : r.evaluations.Perm s.evaluations
  warnings : r.warnings.Perm s.warnings

variable {v w : RuleVersion} {t : Thresholds} {es es' : List RequirementEvaluation} {f : Facts}

theorem countP_isEvaluable (es : List RequirementEvaluation) : es.countP (·.isEvaluable) =
    es.countP (·.status == .passed) + es.countP (·.status == .failed) +
      es.countP (·.status == .error) := by
  induction es with
  | nil => rfl
  | cons e es ih =>
    rw [List.countP_cons, List.countP_cons, List.countP_cons, List.countP_cons, ih,
      RequirementEvaluation.isEvaluable]
    cases e.status <;> simp <;> omega

theorem length_lacking (v : RuleVersion) (t : Thresholds) (es : List RequirementEvaluation) :
    (ofEvaluations v t es).requirementsWithMissingFacts.length =
      es.countP (·.status == .indeterminate) := by
  rw [List.countP_eq_length_filter]
  simp only [ofEvaluations, List.length_map, RequirementEvaluation.isEvaluable, bne, Bool.not_not]

theorem total_add_lacking (v : RuleVersion) (t : Thresholds) (es : List RequirementEvaluation) :
    (ofEvaluations v t es).total + (ofEvaluations v t es).requirementsWithMissingFacts.length =
      es.length := by
  have rest : (ofEvaluations v t es).requirementsWithMissingFacts.length =
      es.countP fun e => !e.isEvaluable := by
    rw [List.countP_eq_length_filter]
    exact List.length_map _
  rw [total_ofEvaluations, rest, List.length_eq_countP_add_countP (·.isEvaluable) (l := es)]
  simp

theorem warnings_ofEvaluations (some : es ≠ []) :
    (ofEvaluations v t es).warnings = es.filterMap warningOf := by
  simp [ofEvaluations, some]

theorem named_warningOf (reasons : ∀ e ∈ es, e.status = .error → ∃ reason, e.error = some reason) :
    List.Forall₂ RequirementEvaluation.IsNamedBy (es.filter (·.status == .error))
      (es.filterMap warningOf) := by
  induction es with
  | nil => exact .nil
  | cons e es ih =>
    obtain ⟨here, others⟩ := List.forall_mem_cons.1 reasons
    by_cases failed : e.status = .error
    · obtain ⟨reason, known⟩ := here failed
      rw [List.filter_cons_of_pos (by simpa using failed)]
      simp only [List.filterMap_cons, warningOf, failed, if_true]
      exact .cons ⟨reason, known, by rw [known]; rfl⟩ (ih others)
    · rw [List.filter_cons_of_neg (by simpa using failed)]
      simp only [List.filterMap_cons, warningOf, failed, if_false]
      exact ih others

theorem ofEvaluations_perm (h : es.Perm es') :
    SameUpToOrder (ofEvaluations v t es) (ofEvaluations v t es') := by
  have evaluable := h.filter (·.isEvaluable)
  have indeterminate := h.filter (!·.isEvaluable)
  have mandatory := (indeterminate.filter (·.mandatory)).map (·.code)
  have passed := (evaluable.filter (·.isPassed)).length_eq
  exact
    { version := ⟨rfl, rfl, rfl⟩
      outcome := by
        simp only [ofEvaluations, passed, evaluable.length_eq, evaluable.any_eq,
          mandatory.isEmpty_eq]
      confidence := by simp only [ofEvaluations, passed, evaluable.length_eq]
      passed
      total := evaluable.length_eq
      missingFacts := distinct_perm (indeterminate.flatMap_right _)
      requirementsWithMissingFacts := indeterminate.map _
      mandatoryMissing := mandatory
      evaluations := h
      warnings := by
        simp only [ofEvaluations, h.isEmpty_eq]
        exact (h.filterMap warningOf).append_left _ }

end RuleEvaluation

namespace RuleVersion

open RuleEvaluation

variable {v : RuleVersion} {f : Facts}

theorem accounts_evaluate (v : RuleVersion) (f : Facts) (t : Thresholds) :
    Accounts v f (v.evaluate f t) where
  each := by
    change List.Forall₂ _ v.requirements (v.requirements.map (·.evaluate f))
    rw [List.forall₂_map_right_iff, List.forall₂_same]
    exact fun q _ => ⟨rfl, q.evaluate_code f, q.evaluate_mandatory f⟩
  passed := passed_ofEvaluations v t _
  evaluated := (total_ofEvaluations v t _).trans (countP_isEvaluable _)
  lacking := length_lacking v t _
  whole := (total_add_lacking v t _).trans (List.length_map _)
  passed_le_total := by
    rw [evaluate, passed_ofEvaluations, total_ofEvaluations]
    exact List.countP_mono_left fun e _ => RequirementEvaluation.isEvaluable_of_isPassed
  mandatory := List.filter_sublist.map _
  warned some := by
    have listed : v.evaluations f ≠ [] := by simpa [evaluations] using some
    rw [evaluate, warnings_ofEvaluations listed]
    refine named_warningOf fun e he failed => ?_
    obtain ⟨q, -, rfl⟩ := List.mem_map.1 he
    exact Requirement.exists_reason failed
  unwarned none := by
    simp [evaluate, evaluations, none, ofEvaluations]

/-- Every requirement is counted once, and in whatever order the requirements of a version stand, the
outcome, the confidence and the counts are the same and the lists have the same entries. -/
theorem requirements_counted_once (v : RuleVersion) (f : Facts) (t : Thresholds) :
    Accounts v f (v.evaluate f t) ∧ ∀ rs, v.requirements.Perm rs →
      SameUpToOrder (v.evaluate f t) ({ v with requirements := rs }.evaluate f t) :=
  ⟨accounts_evaluate v f t, fun _ order => ofEvaluations_perm (order.map _)⟩

end RuleVersion

namespace Bench.Sample

def lost : Requirement := { code := "registration", mandatory := false, expression := .null }

theorem read_lost : Expression.ofValue lost.expression =
    .error (.invalid ⟨[], "Expected object, received null"⟩) := by
  have tree : Expression.read .null = .error ⟨[], "Expected object, received null"⟩ := by
    rw [Expression.read]
    · rfl
    · intro fields record
      cases record
  change (Expression.read .null).mapError Expression.Refusal.invalid = _
  rw [tree]
  rfl

def partlyLost : RuleVersion := { ruleVersion with requirements := [salary, lost, degree] }

theorem evaluations_partlyLost : (partlyLost.evaluate salaried).evaluations =
    [⟨"salary_threshold", true, .passed, [], none⟩,
      ⟨"registration", false, .error, [],
        some "Invalid expression: Expected object, received null"⟩,
      ⟨"has_degree", false, .indeterminate, ["has_degree"], none⟩] := by
  change [salary.evaluate salaried, lost.evaluate salaried, degree.evaluate salaried] = _
  unfold Requirement.evaluate
  rw [read_salary, read_lost, read_degree]
  decide +kernel

end Bench.Sample

namespace RuleVersion

open Bench.Sample

/-- One requirement passed, one is in error and one lacks a fact, also when they are turned around. -/
theorem requirements_counted_once_reversed :
    partlyLost.requirements.Perm [degree, lost, salary] ∧
    ({ partlyLost with requirements := [degree, lost, salary] }.evaluate salaried).passed = 1 ∧
    ({ partlyLost with requirements := [degree, lost, salary] }.evaluate salaried).total = 2 ∧
    ({ partlyLost with requirements := [degree, lost, salary] }.evaluate salaried).warnings =
      ["Requirement registration could not be evaluated: " ++
        "Invalid expression: Expected object, received null"] := by
  have order : partlyLost.requirements.Perm [degree, lost, salary] :=
    (List.reverse_perm partlyLost.requirements).symm
  obtain ⟨accounts, reordered⟩ := requirements_counted_once partlyLost salaried {}
  have same := reordered _ order
  refine ⟨order, ?_, ?_, ?_⟩
  · rw [← same.passed, accounts.passed, RuleEvaluation.count, evaluations_partlyLost]
    rfl
  · rw [← same.total, accounts.evaluated, RuleEvaluation.count, RuleEvaluation.count,
      RuleEvaluation.count, evaluations_partlyLost]
    rfl
  · have warned := accounts.warned (List.cons_ne_nil _ _)
    rw [evaluations_partlyLost] at warned
    obtain ⟨_, _, ⟨_, reason, rfl⟩, none, listed⟩ := List.forall₂_cons_left_iff.1 warned
    cases none
    cases reason
    have moved := same.warnings.symm
    rw [listed] at moved
    exact List.perm_singleton.1 moved

end RuleVersion
end VisaEligibility
