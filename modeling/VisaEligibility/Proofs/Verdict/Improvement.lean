import VisaEligibility.Proofs.Number.Rounding
import VisaEligibility.Proofs.Rule.MissingFacts
import VisaEligibility.Verdict.Combination
/-!
Satisfying one more requirement. Neither the confidence nor the outcome of the rules falls when a
requirement that failed or was in error passes, and neither does the conclusion combined with the
same answer of the model, whatever conflicts come or go with it.
-/
set_option autoImplicit false

namespace VisaEligibility

/-- The evaluation of a requirement that was not met and the one after it has passed. -/
structure RequirementEvaluation.Improves (before after : RequirementEvaluation) : Prop where
  code : after.code = before.code
  mandatory : after.mandatory = before.mandatory
  unmet : before.status = .failed ∨ before.status = .error
  passed : after.status = .passed

/-- A conclusion is at most another in the order of outcomes. A reserved label stands in no order
and is at most itself. -/
def Conclusion.AtMost : Conclusion → Conclusion → Prop
  | .outcome a, .outcome b => a.rank ≤ b.rank
  | c, d => c = d

namespace RequirementEvaluation.Improves

variable {e e' : RequirementEvaluation} (h : e.Improves e')

include h

theorem isPassed_before : e.isPassed = false := by
  rcases h.unmet with hs | hs <;> simp [isPassed, hs]

theorem isPassed_after : e'.isPassed = true := by simp [isPassed, h.passed]

theorem isEvaluable_before : e.isEvaluable = true := by
  rcases h.unmet with hs | hs <;> simp [isEvaluable, hs]

theorem isEvaluable_after : e'.isEvaluable = true := isEvaluable_of_isPassed h.isPassed_after

end RequirementEvaluation.Improves

namespace RuleEvaluation

theorem share_mono {passed passed' : Nat} (h : passed ≤ passed') (total : Nat) :
    (share passed total).le (share passed' total) = true := by
  unfold share
  split
  · rfl
  · rw [Rat.mkRat_eq_div, Rat.mkRat_eq_div]
    refine Number.nearest_mono (by positivity) ?_
    have more : ((passed : Int) : Rat) ≤ (passed' : Int) := by exact_mod_cast h
    gcongr

theorem confidence_ofEvaluations (v : RuleVersion) (t : Thresholds)
    (es : List RequirementEvaluation) : (ofEvaluations v t es).confidence =
      share (ofEvaluations v t es).passed (ofEvaluations v t es).total := rfl

/-- The outcome rises with the confidence, however the thresholds lie to one another, and falls with
a mandatory requirement that is not passed. -/
theorem decide_mono {t : Thresholds} {failed failed' missing : Bool} {c c' : Number}
    (hf : failed' = true → failed = true) (hc : c.le c' = true) :
    (decide t failed missing c).rank ≤ (decide t failed' missing c').rank := by
  cases failed with
  | true => exact Nat.zero_le _
  | false =>
    have fine : failed' = false := by simpa using hf
    have eligible (h : (t.eligible.le c && !missing) = true) :
        (t.eligible.le c' && !missing) = true := by
      obtain ⟨reached, complete⟩ := Bool.and_eq_true_iff.1 h
      rw [Number.le_trans reached hc, complete]
      rfl
    simp only [decide, fine, Bool.false_eq_true, if_false]
    by_cases qualified : (t.eligible.le c && !missing) = true
    · rw [if_pos qualified, if_pos (eligible qualified)]
    · rw [if_neg qualified]
      by_cases reviewed : t.review.le c = true
      · rw [if_pos reviewed, if_pos (Number.le_trans reviewed hc)]
        split
        · exact Nat.le_succ 1
        · exact Nat.le_refl 1
      · rw [if_neg reviewed]
        exact Nat.zero_le _

theorem ofEvaluations_improves {before after : RequirementEvaluation} (h : before.Improves after)
    (v : RuleVersion) (t : Thresholds) (front back : List RequirementEvaluation) :
    (ofEvaluations v t (front ++ after :: back)).passed =
        (ofEvaluations v t (front ++ before :: back)).passed + 1 ∧
      (ofEvaluations v t (front ++ after :: back)).total =
        (ofEvaluations v t (front ++ before :: back)).total ∧
      (ofEvaluations v t (front ++ after :: back)).mandatoryMissing =
        (ofEvaluations v t (front ++ before :: back)).mandatoryMissing := by
  refine ⟨?_, ?_, ?_⟩
  · simp only [passed_ofEvaluations, List.countP_append, List.countP_cons, h.isPassed_before,
      h.isPassed_after, if_true, Bool.false_eq_true, if_false]
    omega
  · simp only [total_ofEvaluations, List.countP_append, List.countP_cons, h.isEvaluable_before,
      h.isEvaluable_after]
  · simp [ofEvaluations, h.isEvaluable_before, h.isEvaluable_after]

theorem outcome_mono {before after : RequirementEvaluation} (h : before.Improves after)
    (v : RuleVersion) (t : Thresholds) (front back : List RequirementEvaluation) :
    (ofEvaluations v t (front ++ before :: back)).confidence.le
        (ofEvaluations v t (front ++ after :: back)).confidence = true ∧
      (ofEvaluations v t (front ++ before :: back)).outcome.rank ≤
        (ofEvaluations v t (front ++ after :: back)).outcome.rank := by
  obtain ⟨passed, total, missing⟩ := ofEvaluations_improves h v t front back
  have confidence : (ofEvaluations v t (front ++ before :: back)).confidence.le
      (ofEvaluations v t (front ++ after :: back)).confidence = true := by
    rw [confidence_ofEvaluations, confidence_ofEvaluations, total, passed]
    exact share_mono (Nat.le_succ _) _
  refine ⟨confidence, ?_⟩
  change (decide t _ (!(ofEvaluations v t (front ++ before :: back)).mandatoryMissing.isEmpty) _).rank ≤
    (decide t _ (!(ofEvaluations v t (front ++ after :: back)).mandatoryMissing.isEmpty) _).rank
  rw [missing]
  refine decide_mono (fun failed => ?_) confidence
  simp only [List.filter_append, List.filter_cons, h.isEvaluable_before, h.isEvaluable_after,
    if_true, List.any_append, List.any_cons, h.isPassed_before, h.isPassed_after, Bool.not_true,
    Bool.and_false, Bool.false_or] at failed ⊢
  cases he : before.mandatory <;> simp_all

end RuleEvaluation

namespace CombinedVerdict

/-- The conclusion combined with one answer of the model rises with the outcome of the rules. With an
answer that refuses, a rise to eligible makes a conflict and lifts the refusal to a review; with one
that approves, a rise from a refusal dissolves the conflict and lifts the review. -/
theorem merge_mono {rule rule' : RuleVerdict} (h : rule.outcome.rank ≤ rule'.outcome.rank)
    (ai : Option AiVerdict) :
    (merge rule ai).conclusion.AtMost (merge rule' ai).conclusion := by
  have known (a b o : Outcome) (hab : a.rank ≤ b.rank) :
      (if a.conflicts o then Outcome.requiresReview else o).rank ≤
        (if b.conflicts o then Outcome.requiresReview else o).rank := by
    revert hab
    cases a <;> cases b <;> cases o <;> decide
  match ai with
  | none => exact h
  | some ⟨none, _⟩ => exact h
  | some ⟨some (.reserved l), _⟩ => exact rfl
  | some ⟨some (.outcome o), confidence⟩ =>
    have conclusion (r : RuleVerdict) :
        (merge r (some ⟨some (.outcome o), confidence⟩)).conclusion =
          .outcome (if r.outcome.conflicts o then .requiresReview else o) := by
      cases hc : r.outcome.conflicts o <;> simp [merge, mergeKnown, conflicts, hc]
    rw [conclusion, conclusion]
    exact known _ _ o h

end CombinedVerdict

namespace RuleEvaluation

/-- Satisfying one more requirement never hurts. When one evaluation changes from failed or error to
passed, the share of the requirements passed, the confidence, the outcome of the rules and the
conclusion combined with any one answer of the model are at least what they were. -/
theorem one_more_passed {before after : RequirementEvaluation} (h : before.Improves after)
    (v : RuleVersion) (t t' : Thresholds) (front back : List RequirementEvaluation)
    (ai : Option AiVerdict) :
    let rule := ofEvaluations v t (front ++ before :: back)
    let rule' := ofEvaluations v t (front ++ after :: back)
    (rule.passed : Rat) / rule.total ≤ rule'.passed / rule'.total ∧
    rule.confidence.le rule'.confidence = true ∧
    rule.outcome.rank ≤ rule'.outcome.rank ∧
    (CombinedVerdict.combine rule.verdict ai t').conclusion.AtMost
      (CombinedVerdict.combine rule'.verdict ai t').conclusion := by
  intro rule rule'
  obtain ⟨passed, total, -⟩ := ofEvaluations_improves h v t front back
  obtain ⟨confidence, outcome⟩ := outcome_mono h v t front back
  refine ⟨?_, confidence, outcome, CombinedVerdict.merge_mono outcome ai⟩
  rw [passed, total]
  gcongr
  exact Nat.le_succ _

/-- A mandatory requirement passes after all, against a model that refuses: the rules go from a
refusal to eligible, the combined conclusion from a refusal to a review. -/
theorem one_more_passed_refused :
    let before : RequirementEvaluation := ⟨"R1", true, .failed, [], none⟩
    let after : RequirementEvaluation := ⟨"R1", true, .passed, [], none⟩
    let rule := ofEvaluations default {} [before]
    let rule' := ofEvaluations default {} [after]
    let ai : Option AiVerdict := some ⟨some (.outcome .notEligible), none⟩
    before.Improves after ∧
    rule.outcome = .notEligible ∧ rule'.outcome = .eligible ∧
    (CombinedVerdict.combine rule.verdict ai).conclusion = .outcome .notEligible ∧
    (CombinedVerdict.combine rule'.verdict ai).conclusion = .outcome .requiresReview ∧
    rule.confidence.le rule'.confidence = true ∧ rule.outcome.rank ≤ rule'.outcome.rank ∧
    (CombinedVerdict.combine rule.verdict ai).conclusion.AtMost
      (CombinedVerdict.combine rule'.verdict ai).conclusion := by
  intro before after rule rule' ai
  have improves : before.Improves after := ⟨rfl, rfl, .inl rfl, rfl⟩
  obtain ⟨-, confidence, outcome, conclusion⟩ := one_more_passed improves default {} {} [] [] ai
  exact ⟨improves, by decide +kernel, by decide +kernel, by decide +kernel, by decide +kernel,
    confidence, outcome, conclusion⟩

end RuleEvaluation
end VisaEligibility
