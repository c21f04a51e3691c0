import VisaEligibility.Proofs.Check.Writes
import VisaEligibility.Proofs.Rule.Unmet
import VisaEligibility.Proofs.Verdict.Combination
/-!
No unsafe approval. A case with an unmet mandatory requirement is never stored as eligible without
going to review, whatever the model says.
-/
set_option autoImplicit false

namespace VisaEligibility

open Program

def Call.isReading : Call → Bool
  | .facts _ => true
  | .ruleVersion _ _ => true
  | _ => false

namespace Check

def Unread (h : History Call.interface) : Prop := ∀ x ∈ h, x.call.isReading = false

theorem Unread.append {h h' : History Call.interface} (hu : Unread h) (hu' : Unread h') :
    Unread (h ++ h') :=
  List.forall_mem_append.2 ⟨hu, hu'⟩

section Parts

variable {s : EngineSettings} {r : CheckRequest} {facts : Facts} {d : Decision}
  {h : History Call.interface}

theorem unread_evaluationDate {t : Instant} (hr : Returns (evaluationDate r) h t) : Unread h := by
  rcases eq_of_returns_evaluationDate hr with rfl | rfl
  · simp [Unread]
  · simp [Unread, Call.isReading]

theorem AnswerStored.unread {caseId : String} {p : AiPart}
    {x : Except Raised (Option ReasoningLog × List Citation)} (ha : AnswerStored caseId p h x) :
    Unread h := by
  cases ha <;> simp [Unread, stamp, Call.isReading]

theorem unread_saving (id : String) (time : Instant) (x : EligibilityResult)
    (w : Except Raised Unit) : Unread (saving id time x w) := by
  simp [Unread, saving, stamp, Call.isReading]

theorem Storing.unread {x : Except Raised Stored} (hs : Storing s r d h x) : Unread h := by
  cases hs with
  | answerLost answer => exact answer.unread
  | resultFailed answer id time e => exact answer.unread.append (unread_saving _ _ _ _)
  | stored answer id time => exact answer.unread.append (unread_saving _ _ _ _)

theorem unread_notice (caseId : String) (c : CombinedVerdict) (w : Except Raised Unit) :
    Unread [notice caseId c w] := by
  intro z hz
  obtain rfl := List.mem_singleton.1 hz
  unfold notice
  split <;> rfl

theorem unread_tally (c : CombinedVerdict) : Unread (tally c) := by
  unfold tally
  split
  · simp [Unread, Call.isReading]
  · simp [Unread]

theorem Concluding.unread {x : Stored} {y : Except Raised CheckReport}
    (hc : Concluding s r d x h y) : Unread h := by
  cases hc with
  | told w hw =>
    have counted : Unread [⟨.count (.check x.result.conclusion.display "success"), ()⟩] := by
      simp [Unread, Call.isReading]
    exact (unread_notice _ _ _).append ((unread_tally _).append counted)
  | untold e he => exact unread_notice _ _ _

theorem unread_failureCount : Unread [failureCount] := by
  simp [Unread, failureCount, Call.isReading]

theorem Concluding.stage_ne_result {x : Stored} {y : Except Raised CheckReport}
    (hc : Concluding s r d x h y) : ∀ z ∈ h, z.call.writeStage? ≠ some .result := by
  intro z hz hs
  cases hc.stage z hz _ hs

theorem Storing.saved {y : Except Raised Stored} (hs : Storing s r d h y) :
    ∀ z ∈ h, ∀ x, z.call = .saveResult x → ∃ log id time, x = d.result s r log id time := by
  have unanswered {h : History Call.interface}
      {a : Except Raised (Option ReasoningLog × List Citation)}
      (ha : AnswerStored r.caseId d.ai h a) :
      ∀ z ∈ h, ∀ x, z.call = .saveResult x → ∃ log id time, x = d.result s r log id time := by
    cases ha <;> simp [stamp]
  have of_saving (log : Option ReasoningLog) (id : String) (time : Instant)
      (w : Except Raised Unit) : ∀ z ∈ saving id time (d.result s r log id time) w, ∀ x,
        z.call = .saveResult x → ∃ log id time, x = d.result s r log id time := by
    simp only [saving, stamp, List.cons_append, List.nil_append, List.forall_mem_cons]
    refine ⟨by simp, by simp, ?_, by simp⟩
    intro x hx
    exact ⟨log, id, time, (Call.saveResult.inj hx).symm⟩
  cases hs with
  | answerLost answer => exact unanswered answer
  | resultFailed answer id time e =>
    exact List.forall_mem_append.2 ⟨unanswered answer, of_saving _ _ _ _⟩
  | stored answer id time =>
    exact List.forall_mem_append.2 ⟨unanswered answer, of_saving _ _ _ _⟩

theorem unread_askModel {rule : RuleEvaluation} {x : Except Raised AiPart}
    (hr : Returns (askModel s r facts rule).run h x) : Unread h := by
  intro z hz
  have := remote_askModel hr z hz
  cases hc : z.call <;> first | rfl | (rw [hc] at this; cases this)

theorem decision_reads {asOf : Instant} (hr : Returns (decision s r facts asOf).run h (.ok d)) :
    ∃ v h', h = ⟨.ruleVersion r.visaTypeId asOf, .ok v⟩ :: h' ∧ Unread h' ∧
      d.rule = v.evaluate facts s.thresholds := by
  cases Deciding.of_returns hr with
  | decided v asked => exact ⟨v, _, rfl, unread_askModel asked, rfl⟩

theorem eq_of_reading {h' : History Call.interface} {x a : Exchange Call.interface}
    (hu : Unread h) (hu' : Unread h') (hx : x ∈ h ++ a :: h') (hr : x.call.isReading = true) :
    x = a := by
  rcases List.mem_append.1 hx with hx | hx
  · rw [hu x hx] at hr
    cases hr
  · rcases List.mem_cons.1 hx with rfl | hx
    · rfl
    · rw [hu' x hx] at hr
      cases hr

end Parts

/-- A result is that of a decision on the facts and on the only version in a history. -/
def Justified (s : EngineSettings) (r : CheckRequest) (facts : Facts)
    (h : History Call.interface) (x : EligibilityResult) : Prop :=
  ∃ d : Decision, (∃ log id time, x = d.result s r log id time) ∧
    ∃ v asOf, d.rule = v.evaluate facts s.thresholds ∧
      ∀ a ∈ h, a.call.isReading = true → a = ⟨.ruleVersion r.visaTypeId asOf, .ok v⟩

section Runs

variable {s : EngineSettings} {r : CheckRequest} {facts : Facts} {h : History Call.interface}

theorem justified_of_storing {h₁ h₂ h₃ h₄ : History Call.interface} {asOf : Instant}
    {d : Decision} {y : Except Raised Stored} {z : Exchange Call.interface}
    {x : EligibilityResult} (dated : Returns (evaluationDate r) h₁ asOf)
    (decided : Returns (decision s r facts asOf).run h₂ (.ok d)) (storing : Storing s r d h₃ y)
    (hu : Unread h₄) (hs : ∀ a ∈ h₄, a.call.writeStage? ≠ some .result)
    (hz : z ∈ h₁ ++ h₂ ++ h₃ ++ h₄) (hx : z.call = .saveResult x) :
    Justified s r facts (h₁ ++ h₂ ++ h₃ ++ h₄) x := by
  have stage : z.call.writeStage? = some .result := by rw [hx]; rfl
  have quiet := (quiet_evaluationDate dated).append (quiet_decision decided)
  obtain ⟨v, h', rfl, hu', hv⟩ := decision_reads decided
  refine ⟨d, ?_, v, asOf, hv, ?_⟩
  · rcases List.mem_append.1 hz with hz | hz
    · rcases List.mem_append.1 hz with hz | hz
      · rw [quiet z hz] at stage
        cases stage
      · exact storing.saved z hz x hx
    · exact absurd stage (hs z hz)
  · intro a ha hr
    rw [List.append_assoc, List.append_assoc] at ha
    exact eq_of_reading (unread_evaluationDate dated)
      (hu'.append (storing.unread.append hu)) ha hr

theorem Course.saved {y : Except Raised CheckReport} {z : Exchange Call.interface}
    {x : EligibilityResult} (hc : Course s r facts h y) (hz : z ∈ h)
    (hx : z.call = .saveResult x) : Justified s r facts h x := by
  cases hc with
  | undecided dated failed =>
    have quiet := (quiet_evaluationDate dated).append (quiet_decision failed)
    have stage := quiet.append quiet_failureCount z hz
    rw [hx] at stage
    cases stage
  | unstored dated decided failed =>
    exact justified_of_storing dated decided (.of_returns failed) unread_failureCount
      (by simp [failureCount, Call.writeStage?]) hz hx
  | untold dated decided stored failed =>
    have concluding := returns_conclude.1 failed
    rw [List.append_assoc] at hz ⊢
    refine justified_of_storing dated decided (.of_returns stored)
      (concluding.unread.append unread_failureCount) ?_ hz hx
    exact List.forall_mem_append.2 ⟨concluding.stage_ne_result, by
      simp [failureCount, Call.writeStage?]⟩
  | concluded dated decided stored last =>
    have concluding := returns_conclude.1 last
    exact justified_of_storing dated decided (.of_returns stored) concluding.unread
      concluding.stage_ne_result hz hx

end Runs

theorem combine_of_unmet {v : RuleVersion} {facts : Facts} (hv : v.Unmet facts)
    (rt ct : Thresholds) (ai : Option AiVerdict) :
    ¬((CombinedVerdict.combine (v.evaluate facts rt).verdict ai ct).conclusion =
        .outcome .eligible ∧
      (CombinedVerdict.combine (v.evaluate facts rt).verdict ai ct).escalate = false) := by
  rintro ⟨hc, he⟩
  rcases hv.refused_or_missing rt with hr | hm
  · exact CombinedVerdict.combine_of_notEligible (hr.outcome rt) ai ct hc
  · rw [CombinedVerdict.escalate_of_missing hm] at he
    cases he

/-- No unsafe approval. If a mandatory requirement of a version did not pass, no answer of the model
makes the combined verdict eligible without a review; if one failed or is in error, none makes it
eligible. The combined verdict is never the opposite of the outcome of the rules. So a check saves no
eligible result without escalating it for a case with an unmet mandatory requirement, whatever the
replies to its calls. -/
theorem no_unsafe_approval (v : RuleVersion) (facts : Facts) :
    (∀ (rt ct : Thresholds) (ai : Option AiVerdict),
      let rule := v.evaluate facts rt
      let c := CombinedVerdict.combine rule.verdict ai ct
      (v.Unmet facts → ¬(c.conclusion = .outcome .eligible ∧ c.escalate = false)) ∧
      (v.Refused facts → c.conclusion ≠ .outcome .eligible) ∧
      ¬(rule.outcome = .eligible ∧ c.conclusion = .outcome .notEligible) ∧
      ¬(rule.outcome = .notEligible ∧ c.conclusion = .outcome .eligible)) ∧
    ∀ (s : EngineSettings) (r : CheckRequest) (h : History Call.interface) (asOf : Instant)
      (x : EligibilityResult), Attempts (run s r) h (.saveResult x) →
      ⟨.facts r.caseId, .ok facts⟩ ∈ h → ⟨.ruleVersion r.visaTypeId asOf, .ok v⟩ ∈ h →
      v.Unmet facts → ¬(x.conclusion = .outcome .eligible ∧ x.escalated = false) := by
  refine ⟨?_, ?_⟩
  · intro rt ct ai
    refine ⟨fun hv => combine_of_unmet hv rt ct ai, fun hv => ?_, ?_, ?_⟩
    · exact CombinedVerdict.combine_of_notEligible (hv.outcome rt) ai ct
    · rintro ⟨hr, hc⟩
      exact CombinedVerdict.combine_of_eligible hr ai ct hc
    · rintro ⟨hr, hc⟩
      exact CombinedVerdict.combine_of_notEligible hr ai ct hc
  · intro s r h asOf x ha hf hv unmet
    obtain ⟨w, h', y, hr⟩ := ha.exists_returns
    have inHistory {a : Exchange Call.interface} (hm : a ∈ h) :
        a ∈ h ++ ⟨.saveResult x, w⟩ :: h' := List.mem_append_left _ hm
    rcases returns_run.1 hr with ⟨e, -, hh⟩ | ⟨facts', h₁, hh, hc⟩
    · have hf := inHistory hf
      rw [hh] at hf
      cases List.mem_singleton.1 hf
    · have hf := inHistory hf
      have hv := inHistory hv
      have hx : ⟨.saveResult x, w⟩ ∈ h ++ ⟨.saveResult x, w⟩ :: h' := by simp
      rw [hh] at hf hv hx
      have hx : ⟨.saveResult x, w⟩ ∈ h₁ := by
        rcases List.mem_cons.1 hx with hx | hx
        · cases hx
        · exact hx
      obtain ⟨d, ⟨log, id, time, rfl⟩, v', asOf', hd, reading⟩ := hc.saved hx rfl
      have same_facts : facts = facts' := by
        rcases List.mem_cons.1 hf with hf | hf
        · cases hf
          rfl
        · cases reading _ hf rfl
      have same_version : v = v' := by
        rcases List.mem_cons.1 hv with hv | hv
        · cases hv
        · cases reading _ hv rfl
          rfl
      subst same_facts same_version
      have := combine_of_unmet unmet s.thresholds s.thresholds d.ai.verdict
      rw [← hd] at this
      exact this

def unreadableVersion : RuleVersion :=
  { (default : RuleVersion) with
    requirements := [{ code := "R1", expression := .null, mandatory := true }] }

theorem unreadable_refused : unreadableVersion.Refused .empty := by
  refine ⟨_, List.mem_singleton.2 rfl, rfl, .inr ?_⟩
  have unread : ∃ i, Expression.read .null = .error i := by simp [Expression.read]
  obtain ⟨i, hi⟩ := unread
  have refused : Expression.ofValue .null = .error (Expression.Refusal.invalid i) := by
    change (Expression.read .null).mapError Expression.Refusal.invalid = _
    rw [hi]
    rfl
  unfold Requirement.evaluate
  rw [refused]

/-- The unreadable version against a model that is sure of eligibility, and in a check. -/
theorem no_unsafe_approval_unreadable :
    unreadableVersion.Refused .empty ∧
    (CombinedVerdict.combine (unreadableVersion.evaluate .empty).verdict
      (some ⟨some (.outcome .eligible), some 1⟩)).conclusion ≠ .outcome .eligible ∧
    ∃ h x, Attempts (run {} bareRequest) h (.saveResult x) ∧
      ¬(x.conclusion = .outcome .eligible ∧ x.escalated = false) := by
  obtain ⟨verdicts, checks⟩ := no_unsafe_approval unreadableVersion .empty
  have unmet : unreadableVersion.Unmet .empty := unreadable_refused.unmet
  refine ⟨unreadable_refused, (verdicts {} {} _).2.1 unreadable_refused, ?_⟩
  have history : ∃ x rest,
      (trace (bareWorld unreadableVersion (.ok ()) (.ok ())) (run {} bareRequest)).1 =
        [⟨.facts "case-1", .ok .empty⟩, ⟨.now, .ofMillis 0⟩,
          ⟨.ruleVersion "visa-1" (.ofMillis 0), .ok unreadableVersion⟩, ⟨.newId, "id-1"⟩,
          ⟨.now, .ofMillis 0⟩] ++ ⟨.saveResult x, .ok ()⟩ :: rest := ⟨_, _, rfl⟩
  obtain ⟨x, rest, hh⟩ := history
  have hr := returns_trace (bareWorld unreadableVersion (.ok ()) (.ok ())) (run {} bareRequest)
  rw [hh] at hr
  exact ⟨_, x, hr.attempts, checks {} bareRequest _ (.ofMillis 0) x hr.attempts (by simp [bareRequest])
    (by simp [bareRequest]) unmet⟩

end Check
end VisaEligibility
