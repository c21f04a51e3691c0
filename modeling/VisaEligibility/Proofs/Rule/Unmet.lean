import VisaEligibility.Rule.Evaluation
/-!
Mandatory requirements that are not met. One that failed or is in error refuses; one that lacks
facts is reported as missing.
-/
set_option autoImplicit false

namespace VisaEligibility

/-- Some mandatory requirement of a version did not pass. -/
def RuleVersion.Unmet (v : RuleVersion) (facts : Facts) : Prop :=
  ∃ q ∈ v.requirements, q.mandatory = true ∧ (q.evaluate facts).status ≠ .passed

/-- Some mandatory requirement of a version failed or could not be evaluated. -/
def RuleVersion.Refused (v : RuleVersion) (facts : Facts) : Prop :=
  ∃ q ∈ v.requirements, q.mandatory = true ∧
    ((q.evaluate facts).status = .failed ∨ (q.evaluate facts).status = .error)

@[simp] theorem Requirement.evaluate_mandatory (q : Requirement) (facts : Facts) :
    (q.evaluate facts).mandatory = q.mandatory := by
  unfold Requirement.evaluate
  cases Expression.ofValue q.expression with
  | error e => rfl
  | ok e =>
    dsimp only
    cases e.evaluate facts with
    | error e => rfl
    | ok x => cases x <;> rfl

namespace RuleEvaluation

variable {v : RuleVersion} {t : Thresholds} {es : List RequirementEvaluation}
  {e : RequirementEvaluation}

theorem outcome_of_refused (he : e ∈ es) (hm : e.mandatory = true)
    (hs : e.status = .failed ∨ e.status = .error) :
    (ofEvaluations v t es).outcome = .notEligible := by
  have evaluable : e ∈ es.filter (·.isEvaluable) := by
    refine List.mem_filter.2 ⟨he, ?_⟩
    rcases hs with hs | hs <;> simp [RequirementEvaluation.isEvaluable, hs]
  have unpassed : (e.mandatory && !e.isPassed) = true := by
    rcases hs with hs | hs <;> simp [RequirementEvaluation.isPassed, hm, hs]
  have failed : ((es.filter (·.isEvaluable)).any fun e => e.mandatory && !e.isPassed) = true :=
    List.any_eq_true.2 ⟨e, evaluable, unpassed⟩
  simp only [ofEvaluations, decide, failed, ↓reduceIte]

theorem mandatoryMissing_of_indeterminate (he : e ∈ es) (hm : e.mandatory = true)
    (hs : e.status = .indeterminate) : e.code ∈ (ofEvaluations v t es).mandatoryMissing := by
  refine List.mem_map.2 ⟨e, List.mem_filter.2 ⟨List.mem_filter.2 ⟨he, ?_⟩, hm⟩, rfl⟩
  simp [RequirementEvaluation.isEvaluable, hs]

end RuleEvaluation

namespace RuleVersion

variable {v : RuleVersion} {facts : Facts}

theorem Refused.unmet (hv : v.Refused facts) : v.Unmet facts := by
  obtain ⟨q, hq, hm, hs⟩ := hv
  refine ⟨q, hq, hm, ?_⟩
  rcases hs with hs | hs <;> simp [hs]

theorem Refused.outcome (hv : v.Refused facts) (t : Thresholds) :
    (v.evaluate facts t).outcome = .notEligible := by
  obtain ⟨q, hq, hm, hs⟩ := hv
  have he : q.evaluate facts ∈ v.evaluations facts := List.mem_map.2 ⟨q, hq, rfl⟩
  exact RuleEvaluation.outcome_of_refused he (by rw [Requirement.evaluate_mandatory, hm]) hs

theorem Unmet.refused_or_missing (hv : v.Unmet facts) (t : Thresholds) :
    v.Refused facts ∨ (v.evaluate facts t).mandatoryMissing ≠ [] := by
  obtain ⟨q, hq, hm, hs⟩ := hv
  have he : q.evaluate facts ∈ v.evaluations facts := List.mem_map.2 ⟨q, hq, rfl⟩
  have hm' : (q.evaluate facts).mandatory = true := by rw [Requirement.evaluate_mandatory, hm]
  cases h : (q.evaluate facts).status with
  | passed => exact absurd h hs
  | failed => exact .inl ⟨q, hq, hm, .inl h⟩
  | error => exact .inl ⟨q, hq, hm, .inr h⟩
  | indeterminate =>
    exact .inr (List.ne_nil_of_mem (RuleEvaluation.mandatoryMissing_of_indeterminate he hm' h))

theorem mandatoryMissing_ne_nil {t : Thresholds} : (v.evaluate facts t).mandatoryMissing ≠ [] ↔
    ∃ q ∈ v.requirements, q.mandatory = true ∧ (q.evaluate facts).status = .indeterminate := by
  constructor
  · intro missing
    obtain ⟨code, hcode⟩ := List.exists_mem_of_ne_nil _ missing
    obtain ⟨e, he, -⟩ := List.mem_map.1 hcode
    obtain ⟨lacking, mandatory⟩ := List.mem_filter.1 he
    obtain ⟨evaluated, unknown⟩ := List.mem_filter.1 lacking
    obtain ⟨q, hq, rfl⟩ := List.mem_map.1 evaluated
    rw [Requirement.evaluate_mandatory] at mandatory
    exact ⟨q, hq, mandatory, by simpa [RequirementEvaluation.isEvaluable] using unknown⟩
  · rintro ⟨q, hq, mandatory, unknown⟩
    have evaluated : q.evaluate facts ∈ v.evaluations facts := List.mem_map.2 ⟨q, hq, rfl⟩
    exact List.ne_nil_of_mem (RuleEvaluation.mandatoryMissing_of_indeterminate evaluated
      (by rw [Requirement.evaluate_mandatory, mandatory]) unknown)

end RuleVersion
end VisaEligibility
