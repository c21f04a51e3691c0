import VisaEligibility.Verdict.Combination
/-!
What a combined verdict cannot be: the opposite of the outcome of the rules, or free of a review
when mandatory requirements lack facts.
-/
set_option autoImplicit false

namespace VisaEligibility.CombinedVerdict

/-- A merged conclusion never conflicts with the rules, since a conflict is merged into a review. -/
theorem merge_not_conflicts (rule : RuleVerdict) (ai : Option AiVerdict) :
    conflicts rule.outcome (merge rule ai).conclusion = false := by
  have own (o : Outcome) : conflicts o (.outcome o) = false := by cases o <;> rfl
  have review (o : Outcome) : conflicts o (.outcome .requiresReview) = false := by
    cases o <;> rfl
  match ai with
  | none => exact own _
  | some ⟨none, confidence⟩ => exact own _
  | some ⟨some c, confidence⟩ =>
    simp only [merge, mergeKnown]
    cases hc : conflicts rule.outcome c with
    | true => exact review _
    | false => exact hc

theorem combine_not_conflicts (rule : RuleVerdict) (ai : Option AiVerdict) (t : Thresholds) :
    conflicts rule.outcome (combine rule ai t).conclusion = false :=
  merge_not_conflicts rule ai

theorem combine_of_notEligible {rule : RuleVerdict} (hr : rule.outcome = .notEligible)
    (ai : Option AiVerdict) (t : Thresholds) :
    (combine rule ai t).conclusion ≠ .outcome .eligible := by
  intro hc
  have := combine_not_conflicts rule ai t
  rw [hr, hc] at this
  cases this

theorem combine_of_eligible {rule : RuleVerdict} (hr : rule.outcome = .eligible)
    (ai : Option AiVerdict) (t : Thresholds) :
    (combine rule ai t).conclusion ≠ .outcome .notEligible := by
  intro hc
  have := combine_not_conflicts rule ai t
  rw [hr, hc] at this
  cases this

theorem missing_mem_reasons {rule : RuleVerdict} (hm : rule.mandatoryMissing ≠ [])
    (ai : Option AiVerdict) (t : Thresholds) :
    EscalationReason.missingCriticalFacts ∈ (combine rule ai t).reasons := by
  have : (!rule.mandatoryMissing.isEmpty) = true := by simpa using hm
  simp [combine, escalation, this]

theorem escalate_of_missing {rule : RuleVerdict} (hm : rule.mandatoryMissing ≠ [])
    (ai : Option AiVerdict) (t : Thresholds) : (combine rule ai t).escalate = true := by
  have := List.ne_nil_of_mem (missing_mem_reasons hm ai t)
  simpa [combine] using this

/-- When a merged verdict goes to review for a reason. -/
def Applies (m : Merged) (mandatoryMissing : Bool) (t : Thresholds) : EscalationReason → Prop
  | .lowConfidence => m.confidence.lt t.escalation = true
  | .conflict => m.conflict = true
  | .missingCriticalFacts => mandatoryMissing = true
  | .reviewRecommended => m.conclusion = .outcome .requiresReview ∧ m.conflict = false

theorem mem_escalation {m : Merged} {mandatoryMissing : Bool} {t : Thresholds}
    {x : EscalationReason} :
    x ∈ escalation m mandatoryMissing t ↔ Applies m mandatoryMissing t x := by
  cases x <;> simp [escalation, Applies]

theorem mem_reasons {rule : RuleVerdict} {ai : Option AiVerdict} {t : Thresholds}
    {x : EscalationReason} : x ∈ (combine rule ai t).reasons ↔
      Applies (merge rule ai) (!rule.mandatoryMissing.isEmpty) t x :=
  mem_escalation

theorem escalate_iff {rule : RuleVerdict} {ai : Option AiVerdict} {t : Thresholds} :
    (combine rule ai t).escalate = true ↔ (combine rule ai t).reasons ≠ [] := by
  simp [combine]

theorem merge_conflict_iff {rule : RuleVerdict} {ai : Option AiVerdict} :
    (merge rule ai).conflict = true ↔
      ∃ c confidence, ai = some ⟨some c, confidence⟩ ∧ conflicts rule.outcome c = true := by
  match ai with
  | none => simp [merge]
  | some ⟨none, confidence⟩ => simp [merge]
  | some ⟨some c, confidence⟩ =>
    simp only [merge, mergeKnown]
    cases hc : conflicts rule.outcome c <;> simp [hc]

theorem conflicts_iff {o : Outcome} {c : Conclusion} : conflicts o c = true ↔
    o = .eligible ∧ c = .outcome .notEligible ∨ o = .notEligible ∧ c = .outcome .eligible := by
  cases c with
  | outcome c => simp [conflicts, Outcome.conflicts]
  | reserved l => simp [conflicts]

end VisaEligibility.CombinedVerdict
