import Mathlib.Data.List.Chain
import VisaEligibility.Proofs.Check.Conclusions
import VisaEligibility.Proofs.Rule.Unmet
import VisaEligibility.Proofs.Verdict.Combination
/-!
The report of a check tells one story: its states, its status of the model, its log, its verdict
and its reasons for a review say the same, whatever the collaborators of the check reply.
-/
set_option autoImplicit false

namespace VisaEligibility.Check

open Program

/-- The status of a part of the model says whether it is completed and whether it failed. -/
structure AiPart.Coherent (p : AiPart) : Prop where
  completed : p.status = .completed ↔ p.completed.isSome = true
  failed : p.status = .unavailable ↔ p.failure.isSome = true

theorem AiPart.coherent_skipped : AiPart.skipped.Coherent := by
  constructor <;> simp [skipped]

theorem AiPart.coherent_ofReasoning (x : Reasoning) : (ofReasoning x).Coherent := by
  cases x <;> constructor <;> simp [ofReasoning]

theorem AiPart.state_eq_aiEvaluated {p : AiPart} :
    p.state = .aiEvaluated ↔ p.status = .completed := by
  unfold state
  cases p.status <;> simp

theorem coherent_of_askModel {s : EngineSettings} {r : CheckRequest} {facts : Facts}
    {rule : RuleEvaluation} {h : History Call.interface} {ai : AiPart}
    (hr : Returns (askModel s r facts rule).run h (.ok ai)) : ai.Coherent := by
  unfold askModel at hr
  split at hr
  · obtain ⟨h₁, x, h₂, -, -, hd⟩ := returns_bind.1 hr
    cases x with
    | error f => cases (returns_done.1 hd).2
    | ok x =>
      cases (returns_done.1 hd).2
      exact AiPart.coherent_ofReasoning x
  · cases (returns_done.1 hr).2
    exact AiPart.coherent_skipped

section States

variable {s : EngineSettings} {d : Decision}

theorem Decision.isChain_states :
    (d.states s).IsChain fun a b => b ∈ a.successors := by
  have asked : d.ai.state = .aiEvaluated ∨ d.ai.state = .aiSkipped := by
    unfold AiPart.state
    cases d.ai.status <;> simp
  unfold states
  rcases asked with asked | asked <;> rw [asked] <;> cases (d.combined s).escalate <;> decide

theorem Decision.getLast?_states : (d.states s).getLast? =
    some (if (d.combined s).escalate then .escalated else .done) := rfl

theorem Decision.aiEvaluated_mem_states :
    .aiEvaluated ∈ d.states s ↔ d.ai.status = .completed := by
  rw [← AiPart.state_eq_aiEvaluated]
  unfold states
  cases (d.combined s).escalate <;> simp [eq_comm]

end States

theorem AnswerStored.log_isSome {caseId : String} {p : AiPart} {h : History Call.interface}
    {log : Option ReasoningLog} {citations : List Citation}
    (stored : AnswerStored caseId p h (.ok (log, citations))) :
    log.isSome = p.completed.isSome := by
  cases stored with
  | unanswered hp => rw [hp]; rfl
  | uncited hp id time hc => rw [hp]; rfl
  | cited hp id time hc => rw [hp]; rfl

/-- What a report says fits together: its states, the status of the model, the log, the result and
the reasons for a review, given the version and facts it evaluates and the answers of the model. -/
structure Consistent (t : Thresholds) (v : RuleVersion) (facts : Facts) (given : List ModelAnswer)
    (y : CheckReport) : Prop where
  ruled : y.rule = v.evaluate facts t
  first : y.states.head? = some .pending
  path : y.states.IsChain fun a b => b ∈ a.successors
  last : y.states.getLast? = some .escalated ∨ y.states.getLast? = some .done
  evaluated : .aiEvaluated ∈ y.states ↔ y.aiStatus = .completed
  logged : y.aiStatus = .completed ↔ ∃ l, y.log = some l
  named : y.result.reasoningLogId = y.log.map (·.id)
  unavailable : y.result.aiUnavailable = true ↔ y.aiStatus = .unavailable
  failed : y.aiStatus = .unavailable ↔ ∃ stage, y.aiFailure = some stage
  escalated : y.states.getLast? = some .escalated ↔ y.result.escalated = true
  reasoned : y.result.escalated = true ↔ y.combined.reasons ≠ []
  conflict : y.result.conflictDetected = true ↔ ∃ a ∈ given,
    y.rule.outcome = .eligible ∧ Response.conclusion a.text = some (.outcome .notEligible) ∨
      y.rule.outcome = .notEligible ∧ Response.conclusion a.text = some (.outcome .eligible)
  conflicting : .conflict ∈ y.combined.reasons ↔ y.result.conflictDetected = true
  unsure : .lowConfidence ∈ y.combined.reasons ↔ y.result.confidence.lt t.escalation = true
  lacking : .missingCriticalFacts ∈ y.combined.reasons ↔
    ∃ q ∈ v.requirements, q.mandatory = true ∧ (q.evaluate facts).status = .indeterminate
  recommended : .reviewRecommended ∈ y.combined.reasons ↔
    y.result.conclusion = .outcome .requiresReview ∧ y.result.conflictDetected = false

section Runs

variable {s : EngineSettings} {r : CheckRequest} {facts : Facts} {h : History Call.interface}
  {y : CheckReport}

theorem Course.resolved (course : Course s r facts h (.ok y)) :
    ∃ d x id time warnings, Performed s r facts h (.ok y) d ∧ d.ai.Coherent ∧
      (d.ai.completed = none → answers h = []) ∧ x.log.isSome = d.ai.completed.isSome ∧
      x.result = d.result s r x.log id time ∧ y = report s d x warnings := by
  cases course with
  | @concluded h₁ h₂ h₃ h₄ asOf d x y dated decided stored last =>
    have storing := Storing.of_returns stored
    have concluding := returns_conclude.1 last
    have follows := storing.follows.append concluding.follows
    have coherent : d.ai.Coherent := by
      cases Deciding.of_returns decided with
      | decided v asked => exact coherent_of_askModel asked
    have lost (unanswered : d.ai.completed = none) : answers (h₁ ++ h₂ ++ h₃ ++ h₄) = [] := by
      rw [List.append_assoc, answers_append, follows.answers, List.append_nil]
      exact (Decided.of_returns dated decided).lost unanswered
    cases concluding with
    | told w hw =>
      cases storing with
      | stored answer id time =>
        refine ⟨d, _, id, time, _, ?_, coherent, lost, answer.log_isSome, rfl, rfl⟩
        rw [List.append_assoc]
        refine .of_decided dated decided follows fun z hz => ?_
        cases hz
        exact ⟨by simp [report, saving, triedResults, triedResult?], rfl, rfl⟩

theorem Performed.conflict_iff {x : Except Raised CheckReport} {d : Decision}
    (performed : Performed s r facts h x d) (lost : d.ai.completed = none → answers h = []) :
    (d.combined s).conflict = true ↔ ∃ a ∈ answers h,
      d.rule.outcome = .eligible ∧ Response.conclusion a.text = some (.outcome .notEligible) ∨
        d.rule.outcome = .notEligible ∧
          Response.conclusion a.text = some (.outcome .eligible) := by
  refine CombinedVerdict.merge_conflict_iff.trans ?_
  cases completed : d.ai.completed with
  | none => simp [lost completed, AiPart.verdict, completed]
  | some c =>
    obtain ⟨answered, concluded⟩ := performed.answered c completed
    simp only [AiPart.verdict, completed, Option.map_some, Option.some.injEq, answered,
      List.mem_singleton, exists_eq_left, ← concluded, CombinedVerdict.conflicts_iff]
    rcases c.verdict with ⟨_ | conclusion, confidence⟩
    · simp
    · simp [RuleEvaluation.verdict]

theorem Course.consistent (course : Course s r facts h (.ok y)) :
    ∃ v, readVersions h = [v] ∧ Consistent s.thresholds v facts (answers h) y := by
  obtain ⟨d, x, id, time, warnings, performed, coherent, lost, logged, made, rfl⟩ :=
    course.resolved
  obtain ⟨v, read, ruled⟩ := performed.version
  refine ⟨v, read, ?_⟩
  have result : (report s d x warnings).result = d.result s r x.log id time := made
  have last := d.getLast?_states (s := s)
  constructor
  case ruled => exact ruled
  case first => rfl
  case path => exact d.isChain_states
  case last =>
    show (d.states s).getLast? = _ ∨ (d.states s).getLast? = _
    rw [last]
    cases (d.combined s).escalate <;> simp
  case evaluated => exact d.aiEvaluated_mem_states
  case logged =>
    rw [← Option.isSome_iff_exists]
    exact coherent.completed.trans (by rw [← logged]; rfl)
  case named => rw [result]; rfl
  case unavailable => rw [result]; exact decide_eq_true_iff
  case failed =>
    rw [← Option.isSome_iff_exists]
    exact coherent.failed
  case escalated =>
    rw [result]
    show (d.states s).getLast? = _ ↔ (d.combined s).escalate = true
    rw [last]
    cases (d.combined s).escalate <;> simp
  case reasoned => rw [result]; exact CombinedVerdict.escalate_iff
  case conflict => rw [result]; exact performed.conflict_iff lost
  case conflicting => rw [result]; exact CombinedVerdict.mem_reasons
  case unsure => rw [result]; exact CombinedVerdict.mem_reasons
  case lacking =>
    refine CombinedVerdict.mem_reasons.trans ?_
    rw [← RuleVersion.mandatoryMissing_ne_nil (t := s.thresholds), ← ruled]
    simp [CombinedVerdict.Applies, RuleEvaluation.verdict]
  case recommended => rw [result]; exact CombinedVerdict.mem_reasons

theorem Decision.advances (s : EngineSettings) (d : Decision) : ∃ l,
    (Lifecycle.start.advance .ruleEvaluated >>= (·.advance d.ai.state) >>= (·.advance .combined) >>=
      (·.advance .persisted) >>=
      (·.advance (if (d.combined s).escalate then .escalated else .done))) = .ok l ∧
        l.history = d.states s := by
  have step (past : List CheckState) :
      Lifecycle.advance ⟨past, .combined⟩ .persisted = .ok ⟨past ++ [.combined], .persisted⟩ := rfl
  have first : Lifecycle.start.advance .ruleEvaluated = .ok ⟨[.pending], .ruleEvaluated⟩ := rfl
  have bind {α β : Type} (a : α) (f : α → Except Failure β) : (Except.ok a >>= f) = f a := rfl
  simp only [first, bind, advance_state, advance_combined, step, advance_last]
  exact ⟨_, rfl, rfl⟩

end Runs

/-- A check is never barred by the order of its states: its steps are those without it, and enter
the states one after another. The report it comes to is consistent, whatever the rules, the facts,
the model and the notifications are. -/
theorem reports_consistent (s : EngineSettings) (r : CheckRequest) :
    (∀ facts asOf, steps s r facts asOf = (do
      let d ← decision s r facts asOf
      let x ← store s r d
      conclude s r d x)) ∧
    (∀ d : Decision, ∃ l,
      (Lifecycle.start.advance .ruleEvaluated >>= (·.advance d.ai.state) >>=
        (·.advance .combined) >>= (·.advance .persisted) >>=
        (·.advance (if (d.combined s).escalate then .escalated else .done))) = .ok l ∧
          l.history = d.states s) ∧
    ∀ h y, Returns (run s r) h (.ok y) → ∃ facts h' v, h = ⟨.facts r.caseId, .ok facts⟩ :: h' ∧
      readVersions h = [v] ∧ storedResults h = [y.result] ∧
      Consistent s.thresholds v facts (answers h) y := by
  refine ⟨steps_eq s r, Decision.advances s, fun h y hr => ?_⟩
  rcases returns_run.1 hr with ⟨e, he, -⟩ | ⟨facts, h', rfl, course⟩
  · cases he
  obtain ⟨v, read, consistent⟩ := course.consistent
  exact ⟨facts, h', v, rfl, read, course.told.1, consistent⟩

def opposedRun : History Call.interface × Except Raised CheckReport :=
  trace (answeringWorld default "OUTCOME: eligible\nCONFIDENCE: 0.9")
    (run vagueSettings { bareRequest with enableAi := none })

/-- An answer opposed to the rules is reported as a conflict, with the log of the answer. -/
theorem reports_consistent_opposed :
    ∃ y v facts, opposedRun.2 = .ok y ∧ storedResults opposedRun.1 = [y.result] ∧
      Consistent {} v facts (answers opposedRun.1) y ∧
      y.states = [.pending, .ruleEvaluated, .aiEvaluated, .combined, .persisted, .escalated] ∧
      y.aiStatus = .completed ∧ y.result.reasoningLogId = some "id-1" ∧
      y.combined.reasons = [.lowConfidence, .conflict] ∧ y.result.conflictDetected = true := by
  have hr := returns_trace (I := Call.interface)
    (answeringWorld default "OUTCOME: eligible\nCONFIDENCE: 0.9")
    (run vagueSettings { bareRequest with enableAi := none })
  have reported : opposedRun.2.toOption.map (fun y =>
      (y.states, y.result.reasoningLogId, y.combined.reasons)) =
        some ([.pending, .ruleEvaluated, .aiEvaluated, .combined, .persisted, .escalated],
          some "id-1", [.lowConfidence, .conflict]) := by
    decide +kernel
  obtain ⟨y, hy, parts⟩ := Option.map_eq_some_iff.1 reported
  have ended : opposedRun.2 = .ok y := by
    cases hx : opposedRun.2 with
    | error e => rw [hx] at hy; cases hy
    | ok z => rw [hx] at hy; exact congrArg _ (Option.some.inj hy)
  obtain ⟨facts, h', v, -, -, stored, consistent⟩ := (reports_consistent _ _).2.2 _ y (ended ▸ hr)
  obtain ⟨states, named, reasons⟩ : y.states = _ ∧ y.result.reasoningLogId = _ ∧
      y.combined.reasons = _ := by simpa only [Prod.mk.injEq] using parts
  refine ⟨y, v, facts, ended, stored, consistent, states, ?_, named, reasons, ?_⟩
  · exact consistent.evaluated.1 (by rw [states]; decide)
  · exact consistent.conflicting.1 (by rw [reasons]; decide)

end VisaEligibility.Check
