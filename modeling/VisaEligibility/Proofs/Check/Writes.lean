import VisaEligibility.Proofs.Check.Stages
/-!
The writes of a check. They are made in the order of their stages, and none follows one that has to
succeed and failed. A check that ends with a report has stored the result of the report and then
told the case of it once; a check that fails has done neither, unless it could not report why the
case was not told.
-/
set_option autoImplicit false

namespace VisaEligibility.Check

open Program

section Parts

variable {s : EngineSettings} {r : CheckRequest} {facts : Facts} {asOf : Instant}
  {d : Decision} {h : History Call.interface}

theorem quiet_of_remote (hh : ∀ x ∈ h, x.call.isRemote = true) : Quiet h := by
  intro x hx
  obtain ⟨c, a⟩ := x
  have hc := hh _ hx
  cases c <;> first | rfl | cases hc

theorem only_askModel (s : EngineSettings) (r : CheckRequest) (facts : Facts)
    (rule : RuleEvaluation) : (askModel s r facts rule).run.Only Call.isRemote := by
  unfold askModel
  split
  · refine (Reasoning.only_run _ _ _).bind fun y => ?_
    cases y with
    | ok a => exact only_done _ _
    | error e => exact only_done _ _
  · exact only_done _ _

theorem remote_askModel {rule : RuleEvaluation} {x : Except Raised AiPart}
    (hr : Returns (askModel s r facts rule).run h x) : ∀ z ∈ h, z.call.isRemote = true :=
  (only_askModel s r facts rule).of_reaches hr

theorem quiet_askModel {rule : RuleEvaluation} {x : Except Raised AiPart}
    (hr : Returns (askModel s r facts rule).run h x) : Quiet h :=
  quiet_of_remote (remote_askModel hr)

theorem quiet_decision {x : Except Raised Decision}
    (hr : Returns (decision s r facts asOf).run h x) : Quiet h := by
  have asking (v : RuleVersion) {h : History Call.interface} (hq : Quiet h) :
      Quiet (⟨.ruleVersion r.visaTypeId asOf, .ok v⟩ :: h) :=
    Quiet.append (h := [_]) (by simp [Quiet, Call.writeStage?]) hq
  cases Deciding.of_returns hr with
  | noVersion e => simp [Quiet, Call.writeStage?]
  | aborted v asked => exact asking v (quiet_askModel asked)
  | decided v asked => exact asking v (quiet_askModel asked)

theorem quiet_evaluationDate {t : Instant} (hr : Returns (evaluationDate r) h t) : Quiet h := by
  rcases eq_of_returns_evaluationDate hr with rfl | rfl
  · simp [Quiet]
  · simp [Quiet, Call.writeStage?]

theorem quiet_tally (c : CombinedVerdict) : Quiet (tally c) := by
  unfold tally
  split
  · simp [Quiet, Call.writeStage?]
  · simp [Quiet]

theorem quiet_stamp (id : String) (time : Instant) : Quiet (stamp id time) := by
  simp [Quiet, stamp, Call.writeStage?]

theorem quiet_failureCount : Quiet [failureCount] := by
  simp [Quiet, failureCount, Call.writeStage?]

theorem AnswerStored.ordered {caseId : String} {p : AiPart}
    {x : Except Raised (Option ReasoningLog × List Citation)}
    (ha : AnswerStored caseId p h x) : h.Pairwise Precedes := by
  cases ha with
  | unanswered hp => exact .nil
  | logFailed hp id time e =>
    exact (quiet_stamp id time).ordered_append (List.pairwise_singleton _ _)
  | uncited hp id time hc =>
    exact (quiet_stamp id time).ordered_append (List.pairwise_singleton _ _)
  | citationsFailed hp id time hc e =>
    refine (quiet_stamp id time).ordered_append ?_
    simp [Precedes, writeError?, Call.writeStage?, WriteStage.rank]
  | cited hp id time hc =>
    refine (quiet_stamp id time).ordered_append ?_
    simp [Precedes, writeError?, Call.writeStage?, WriteStage.rank]

theorem AnswerStored.before {caseId : String} {p : AiPart}
    {x : Option ReasoningLog × List Citation} (ha : AnswerStored caseId p h (.ok x)) :
    Before .result h := by
  cases ha with
  | unanswered hp => simp [Before]
  | uncited hp id time hc =>
    refine ((quiet_stamp id time).before .result).append ?_
    simp [Before, writeError?, Call.writeStage?, WriteStage.rank]
  | cited hp id time hc =>
    refine ((quiet_stamp id time).before .result).append ?_
    simp [Before, writeError?, Call.writeStage?, WriteStage.rank]

theorem AnswerStored.silent {caseId : String} {p : AiPart}
    {x : Except Raised (Option ReasoningLog × List Citation)} (ha : AnswerStored caseId p h x) :
    Silent h := by
  cases ha <;> simp [Silent, storedResults, storedResult?, notifications, stamp, Call.writeStage?]

theorem AnswerStored.cited_ne_nil {caseId : String} {p : AiPart}
    {x : Except Raised (Option ReasoningLog × List Citation)} (ha : AnswerStored caseId p h x) :
    ∀ y ∈ h, y.call ≠ .saveCitations [] := by
  cases ha <;> simp_all [stamp]

theorem saving_ordered (id : String) (time : Instant) (x : EligibilityResult)
    (w : Except Raised Unit) : (saving id time x w).Pairwise Precedes :=
  (quiet_stamp id time).ordered_append (List.pairwise_singleton _ _)

theorem saving_stage (id : String) (time : Instant) (x : EligibilityResult)
    (w : Except Raised Unit) : ∀ y ∈ saving id time x w, ∀ k, y.call.writeStage? = some k →
      WriteStage.result.rank ≤ k.rank := by
  simp [saving, stamp, Call.writeStage?]

theorem Storing.ordered {x : Except Raised Stored} (hs : Storing s r d h x) :
    h.Pairwise Precedes := by
  cases hs with
  | answerLost answer => exact answer.ordered
  | resultFailed answer id time e =>
    exact answer.before.ordered_append answer.ordered (saving_ordered ..) (saving_stage _ _ _ _)
  | stored answer id time =>
    exact answer.before.ordered_append answer.ordered (saving_ordered ..) (saving_stage _ _ _ _)

theorem Storing.before {x : Stored} (hs : Storing s r d h (.ok x)) : Before .notification h := by
  cases hs with
  | stored answer id time =>
    refine (answer.before.mono (by decide)).append (((quiet_stamp id time).before _).append ?_)
    simp [Before, writeError?, Call.writeStage?, WriteStage.rank]

theorem Storing.escalated {x : Stored} (hs : Storing s r d h (.ok x)) :
    (d.combined s).escalate = x.result.escalated := by
  cases hs
  rfl

theorem Storing.cited_ne_nil {x : Except Raised Stored} (hs : Storing s r d h x) :
    ∀ y ∈ h, y.call ≠ .saveCitations [] := by
  cases hs with
  | answerLost answer => exact answer.cited_ne_nil
  | resultFailed answer id time e =>
    have := answer.cited_ne_nil
    simp_all [saving, stamp, or_imp]
  | stored answer id time =>
    have := answer.cited_ne_nil
    simp_all [saving, stamp, or_imp]

theorem Storing.writes_error {e : Raised} (hs : Storing s r d h (.error e)) : Silent h := by
  cases hs with
  | answerLost answer => exact answer.silent
  | resultFailed answer id time e => exact answer.silent.append ⟨rfl, rfl⟩

theorem Storing.writes_ok {x : Stored} (hs : Storing s r d h (.ok x)) :
    ∃ h', h = h' ++ [⟨.saveResult x.result, .ok ()⟩] ∧ Silent h' := by
  cases hs with
  | stored answer id time =>
    exact ⟨_, (List.append_assoc ..).symm, answer.silent.append (quiet_stamp id time).silent⟩

theorem quiet_counts (c : CombinedVerdict) (conclusion : Conclusion) :
    Quiet (tally c ++ [⟨.count (.check conclusion.display "success"), ()⟩]) :=
  (quiet_tally c).append (by simp [Quiet, Call.writeStage?])

theorem Concluding.split {x : Stored} {y : Except Raised CheckReport}
    (hc : Concluding s r d x h y) :
    ∃ w h', h = notice r.caseId (d.combined s) w :: h' ∧ Quiet h' := by
  cases hc with
  | told w hw => exact ⟨w, _, rfl, quiet_counts _ _⟩
  | untold e he => exact ⟨.error e, [], rfl, by simp [Quiet]⟩

theorem Concluding.ordered {x : Stored} {y : Except Raised CheckReport}
    (hc : Concluding s r d x h y) : h.Pairwise Precedes := by
  obtain ⟨w, h', rfl, quiet⟩ := hc.split
  refine List.pairwise_cons.2 ⟨fun y hy => ⟨fun hw => ?_, fun j k _ hk => ?_⟩, quiet.ordered⟩
  · exact absurd (writeError?_notice ..) hw
  · rw [quiet y hy] at hk
    cases hk

theorem Concluding.stage {x : Stored} {y : Except Raised CheckReport}
    (hc : Concluding s r d x h y) :
    ∀ z ∈ h, ∀ k, z.call.writeStage? = some k → k = .notification := by
  obtain ⟨w, h', rfl, quiet⟩ := hc.split
  intro z hz k hk
  rcases List.mem_cons.1 hz with rfl | hz
  · rw [writeStage?_notice] at hk
    exact (Option.some.inj hk).symm
  · rw [quiet z hz] at hk
    cases hk

end Parts

section Runs

variable {s : EngineSettings} {r : CheckRequest} {facts : Facts} {h : History Call.interface}

theorem ordered_of_concluding {h₁ h₂ h₃ h₄ : History Call.interface} {asOf : Instant}
    {d : Decision} {x : Stored} {y : Except Raised CheckReport}
    (dated : Returns (evaluationDate r) h₁ asOf)
    (decided : Returns (decision s r facts asOf).run h₂ (.ok d))
    (stored : Returns (store s r d).run h₃ (.ok x)) (last : Concluding s r d x h₄ y) :
    (h₁ ++ h₂ ++ h₃ ++ h₄).Pairwise Precedes := by
  have quiet := (quiet_evaluationDate dated).append (quiet_decision decided)
  have storing := Storing.of_returns stored
  refine ((quiet.before _).append storing.before).ordered_append
    (quiet.ordered_append storing.ordered) last.ordered ?_
  intro z hz k hk
  obtain rfl := last.stage z hz k hk
  exact Nat.le_refl _

theorem Course.ordered {x : Except Raised CheckReport} (hc : Course s r facts h x) :
    h.Pairwise Precedes := by
  cases hc with
  | undecided dated failed =>
    exact ordered_failureCount
      ((quiet_evaluationDate dated).append (quiet_decision failed)).ordered
  | unstored dated decided failed =>
    have quiet := (quiet_evaluationDate dated).append (quiet_decision decided)
    exact ordered_failureCount (quiet.ordered_append (Storing.of_returns failed).ordered)
  | untold dated decided stored failed =>
    exact ordered_failureCount (ordered_of_concluding dated decided stored
      (returns_conclude.1 failed))
  | concluded dated decided stored last =>
    exact ordered_of_concluding dated decided stored (returns_conclude.1 last)

theorem cited_ne_nil_of_stage {x : Exchange Call.interface}
    (hx : x.call.writeStage? ≠ some .citations) : x.call ≠ .saveCitations [] := by
  intro hc
  rw [hc] at hx
  exact hx rfl

theorem Quiet.cited_ne_nil {h : History Call.interface} (hq : Quiet h) :
    ∀ y ∈ h, y.call ≠ .saveCitations [] := by
  intro y hy
  refine cited_ne_nil_of_stage ?_
  rw [hq y hy]
  decide

theorem Concluding.cited_ne_nil {d : Decision} {x : Stored} {y : Except Raised CheckReport}
    (hc : Concluding s r d x h y) : ∀ z ∈ h, z.call ≠ .saveCitations [] := by
  intro z hz
  refine cited_ne_nil_of_stage fun hs => ?_
  cases hc.stage z hz _ hs

theorem Course.cited_ne_nil {x : Except Raised CheckReport} (hc : Course s r facts h x) :
    ∀ y ∈ h, y.call ≠ .saveCitations [] := by
  have counted : ∀ y ∈ [failureCount], y.call ≠ .saveCitations [] :=
    quiet_failureCount.cited_ne_nil
  cases hc with
  | undecided dated failed =>
    have quiet := (quiet_evaluationDate dated).append (quiet_decision failed)
    exact List.forall_mem_append.2 ⟨quiet.cited_ne_nil, counted⟩
  | unstored dated decided failed =>
    have quiet := (quiet_evaluationDate dated).append (quiet_decision decided)
    have storing := (Storing.of_returns failed).cited_ne_nil
    exact List.forall_mem_append.2
      ⟨List.forall_mem_append.2 ⟨quiet.cited_ne_nil, storing⟩, counted⟩
  | untold dated decided stored failed =>
    have quiet := (quiet_evaluationDate dated).append (quiet_decision decided)
    have storing := (Storing.of_returns stored).cited_ne_nil
    have concluding := (returns_conclude.1 failed).cited_ne_nil
    exact List.forall_mem_append.2 ⟨List.forall_mem_append.2
      ⟨List.forall_mem_append.2 ⟨quiet.cited_ne_nil, storing⟩, concluding⟩, counted⟩
  | concluded dated decided stored last =>
    have quiet := (quiet_evaluationDate dated).append (quiet_decision decided)
    have storing := (Storing.of_returns stored).cited_ne_nil
    have concluding := (returns_conclude.1 last).cited_ne_nil
    exact List.forall_mem_append.2
      ⟨List.forall_mem_append.2 ⟨quiet.cited_ne_nil, storing⟩, concluding⟩

theorem quiet_facts (r : CheckRequest) (facts : Facts) :
    Quiet [⟨.facts r.caseId, .ok facts⟩] := by
  simp [Quiet, Call.writeStage?]

theorem silent_facts (r : CheckRequest) (facts : Facts) :
    Silent [⟨.facts r.caseId, .ok facts⟩] := (quiet_facts r facts).silent

theorem ordered_run {x : Except Raised CheckReport} (hr : Returns (run s r) h x) :
    h.Pairwise Precedes ∧ ∀ y ∈ h, y.call ≠ .saveCitations [] := by
  rcases returns_run.1 hr with ⟨e, rfl, rfl⟩ | ⟨facts, h', rfl, hc⟩
  · simp
  · exact ⟨(quiet_facts r facts).ordered_append hc.ordered,
      List.forall_mem_append.2 ⟨(quiet_facts r facts).cited_ne_nil, hc.cited_ne_nil⟩⟩

theorem exists_saved {h₁ h₂ h₃ : History Call.interface} {asOf : Instant} {d : Decision}
    {x : Stored} (dated : Returns (evaluationDate r) h₁ asOf)
    (decided : Returns (decision s r facts asOf).run h₂ (.ok d))
    (stored : Returns (store s r d).run h₃ (.ok x)) :
    ∃ before, h₁ ++ h₂ ++ h₃ = before ++ [⟨.saveResult x.result, .ok ()⟩] ∧ Silent before ∧
      (d.combined s).escalate = x.result.escalated := by
  have quiet := (quiet_evaluationDate dated).append (quiet_decision decided)
  have storing := Storing.of_returns stored
  obtain ⟨h₄, rfl, silent⟩ := storing.writes_ok
  exact ⟨h₁ ++ h₂ ++ h₄, (List.append_assoc _ _ _).symm, quiet.silent.append silent,
    storing.escalated⟩

/-- A check that fails stores nothing and tells no one, unless its last call is a notification that
fails without a text. -/
theorem Course.writes_error {e : Raised} (hc : Course s r facts h (.error e)) :
    Silent h ∨ ∃ before x c lost,
      h = before ++ [⟨.saveResult x, .ok ()⟩, notice r.caseId c (.error lost), failureCount] ∧
      Silent before ∧ c.escalate = x.escalated ∧ lost.hasText = false ∧ e = .failure .noText := by
  cases hc with
  | undecided dated failed =>
    have quiet := (quiet_evaluationDate dated).append (quiet_decision failed)
    exact .inl (quiet.append quiet_failureCount).silent
  | unstored dated decided failed =>
    have quiet := (quiet_evaluationDate dated).append (quiet_decision decided)
    have storing := (Storing.of_returns failed).writes_error
    exact .inl ((quiet.silent.append storing).append quiet_failureCount.silent)
  | untold dated decided stored failed =>
    obtain ⟨before, hb, silent, escalated⟩ := exists_saved dated decided stored
    cases returns_conclude.1 failed with
    | untold lost hl =>
      refine .inr ⟨before, _, _, lost, ?_, silent, escalated, hl, rfl⟩
      rw [hb]
      simp

/-- A check that ends with a report stores its result and then tells the case of it. The reply to
that changes no more than the warnings, as long as it can be reported. -/
theorem Course.writes_ok {y : CheckReport} (hc : Course s r facts h (.ok y)) :
    ∃ before w after base,
      h = before ++ ⟨.saveResult y.result, .ok ()⟩ :: notice r.caseId y.combined w :: after ∧
      Silent before ∧ Quiet after ∧ isReportable w = true ∧
      y.combined.escalate = y.result.escalated ∧
      y.warnings = base ++ noticeWarnings y.combined w ∧
      (∀ w', isReportable w' = true → Course s r facts
        (before ++ ⟨.saveResult y.result, .ok ()⟩ :: notice r.caseId y.combined w' :: after)
        (.ok { y with warnings := base ++ noticeWarnings y.combined w' })) ∧
      ∀ lost, lost.hasText = false → Course s r facts
        (before ++ [⟨.saveResult y.result, .ok ()⟩, notice r.caseId y.combined (.error lost),
          failureCount]) (.error (.failure .noText)) := by
  cases hc with
  | @concluded h₁ h₂ h₃ h₄ asOf d x y dated decided stored last =>
    obtain ⟨before, hb, silent, escalated⟩ := exists_saved dated decided stored
    cases returns_conclude.1 last with
    | told w reportable =>
      have split (h : History Call.interface) :
          h₁ ++ h₂ ++ h₃ ++ h = before ++ ⟨.saveResult x.result, .ok ()⟩ :: h := by
        rw [hb, List.append_assoc, List.singleton_append]
      refine ⟨before, w, _, d.rule.warnings ++ d.ai.warnings, split _, silent,
        quiet_counts (d.combined s) x.result.conclusion, reportable, escalated, rfl, ?_, ?_⟩
      · intro w' reportable'
        have course := Course.concluded dated decided stored
          (returns_conclude.2 (.told w' reportable'))
        rw [split] at course
        exact course
      · intro lost hl
        have course := Course.untold dated decided stored (returns_conclude.2 (.untold lost hl))
        rw [split, List.append_assoc, List.cons_append, List.singleton_append] at course
        exact course

theorem writes_run_error {e : Raised} (hr : Returns (run s r) h (.error e)) :
    Silent h ∨ ∃ before x c lost,
      h = before ++ [⟨.saveResult x, .ok ()⟩, notice r.caseId c (.error lost), failureCount] ∧
      Silent before ∧ c.escalate = x.escalated ∧ lost.hasText = false ∧ e = .failure .noText := by
  rcases returns_run.1 hr with ⟨e, -, rfl⟩ | ⟨facts, h', rfl, hc⟩
  · exact .inl ⟨rfl, rfl⟩
  · rcases hc.writes_error with silent | ⟨before, x, c, lost, rfl, silent, rest⟩
    · exact .inl ((silent_facts r facts).append silent)
    · exact .inr ⟨_, x, c, lost, rfl, (silent_facts r facts).append silent, rest⟩

/-- A check is all or nothing, up to a notification whose failure cannot be reported. One that ends
with a report has stored the result of the report, once, and has then made one notification, the
reply to which changes no more than the warnings; but had the notification failed without a text,
the check would have failed with its result stored. One that fails has stored no result and notified
no one, unless it failed in that way. Writes are attempted in the order of their stages, citations
only when there are some, and after a write that has to succeed and failed nothing follows but the
count of the failure. -/
theorem run_all_or_nothing_unless_untold (s : EngineSettings) (r : CheckRequest) :
    (∀ h y, Returns (run s r) h (.ok y) →
      ∃ before w after base,
        h = before ++ ⟨.saveResult y.result, .ok ()⟩ :: notice r.caseId y.combined w :: after ∧
        storedResults h = [y.result] ∧
        notifications h = [notice r.caseId y.combined w] ∧
        y.combined.escalate = y.result.escalated ∧
        y.warnings = base ++ noticeWarnings y.combined w ∧
        (∀ w', isReportable w' = true → Returns (run s r)
          (before ++ ⟨.saveResult y.result, .ok ()⟩ :: notice r.caseId y.combined w' :: after)
          (.ok { y with warnings := base ++ noticeWarnings y.combined w' })) ∧
        ∀ lost, lost.hasText = false → Returns (run s r)
          (before ++ [⟨.saveResult y.result, .ok ()⟩, notice r.caseId y.combined (.error lost),
            failureCount]) (.error (.failure .noText))) ∧
    (∀ h e, Returns (run s r) h (.error e) →
      storedResults h = [] ∧ notifications h = [] ∨
      ∃ before x c lost,
        h = before ++ [⟨.saveResult x, .ok ()⟩, notice r.caseId c (.error lost), failureCount] ∧
        storedResults h = [x] ∧ notifications h = [notice r.caseId c (.error lost)] ∧
        c.escalate = x.escalated ∧ lost.hasText = false ∧ e = .failure .noText) ∧
    ∀ h c, Attempts (run s r) h c →
      c ≠ .saveCitations [] ∧
      (∀ x ∈ h, ∀ j k, x.call.writeStage? = some j → c.writeStage? = some k → j.rank < k.rank) ∧
      ((∃ x ∈ h, writeError? x ≠ none) → c = failureCount.call) := by
  refine ⟨?_, ?_, ?_⟩
  · intro h y hr
    rcases returns_run.1 hr with ⟨e, he, -⟩ | ⟨facts, h', rfl, hc⟩
    · cases he
    · obtain ⟨before, w, after, base, rfl, silent, quiet, -, he, hw, again, lost⟩ := hc.writes_ok
      obtain ⟨hs, hn⟩ := writes_of_delivery ((silent_facts r facts).append silent) quiet
        y.result r.caseId y.combined w
      refine ⟨⟨.facts r.caseId, .ok facts⟩ :: before, w, after, base, rfl, hs, hn, he, hw, ?_, ?_⟩
      · intro w' reportable
        exact returns_run.2 (.inr ⟨facts, _, rfl, again w' reportable⟩)
      · intro e untold
        exact returns_run.2 (.inr ⟨facts, _, rfl, lost e untold⟩)
  · intro h e hr
    rcases writes_run_error hr with silent | ⟨before, x, c, lost, rfl, silent, he, hl, rfl⟩
    · exact .inl silent
    · obtain ⟨hs, hn⟩ := writes_of_delivery silent quiet_failureCount x r.caseId c (.error lost)
      exact .inr ⟨before, x, c, lost, rfl, hs, hn, he, hl, rfl⟩
  · intro h c ha
    obtain ⟨a, h', x, hr⟩ := ha.exists_returns
    obtain ⟨ho, hc⟩ := ordered_run hr
    obtain ⟨-, -, hp⟩ := List.pairwise_append.1 ho
    refine ⟨hc ⟨c, a⟩ (by simp), ?_, ?_⟩
    · intro y hy
      exact (hp y hy ⟨c, a⟩ (by simp)).2
    · rintro ⟨y, hy, hw⟩
      have := (hp y hy ⟨c, a⟩ (by simp)).1 hw
      exact congrArg Exchange.call this

end Runs

def bareWorld (v : RuleVersion) (saved told : Except Raised Unit) : (c : Call) → Call.Reply c
  | .now => .ofMillis 0
  | .newId => "id-1"
  | .facts _ => .ok .empty
  | .ruleVersion _ _ => .ok v
  | .embedding _ _ => .ok []
  | .search _ _ _ _ _ => .ok []
  | .completion _ _ _ => .error (.value .null)
  | .pause _ => ()
  | .count _ => ()
  | .saveLog _ => .ok ()
  | .saveCitations _ => .ok ()
  | .saveResult _ => saved
  | .requestReview _ _ => told
  | .markEvaluated _ => told

def bareRequest : CheckRequest :=
  { caseId := "case-1", visaTypeId := "visa-1", enableAi := some false }

def textless : Raised := .value (.record [("toString", .null)])

/-- An escalated check whose review request is lost, the same check when that cannot be reported,
and a check whose result is not saved. -/
theorem run_all_or_nothing_unless_untold_bare :
    (∃ before w after y x,
      Returns (run {} bareRequest)
        (before ++ ⟨.saveResult y.result, .ok ()⟩ :: notice "case-1" y.combined w :: after)
        (.ok y) ∧
      y.result.escalated = true ∧ (∀ x ∈ before, writeError? x = none) ∧
      Returns (run {} bareRequest)
        (before ++ [⟨.saveResult y.result, .ok ()⟩, notice "case-1" y.combined (.error textless),
          failureCount]) (.error (.failure .noText)) ∧
      storedResults (before ++ [⟨.saveResult y.result, .ok ()⟩,
        notice "case-1" y.combined (.error textless), failureCount]) = [x]) ∧
    ∃ h e, Returns (run {} bareRequest) h (.error e) ∧ storedResults h = [] ∧
      notifications h = [] := by
  obtain ⟨resolved, rejected, attempted⟩ := run_all_or_nothing_unless_untold {} bareRequest
  refine ⟨?_, ?_⟩
  · have hr := returns_trace (bareWorld default (.ok ()) (.error (.value .null))) (run {} bareRequest)
    have he : (trace (bareWorld default (.ok ()) (.error (.value .null)))
        (run {} bareRequest)).2.toOption.map (fun y => y.result.escalated) = some true := by
      decide +kernel
    cases hx : (trace (bareWorld default (.ok ()) (.error (.value .null))) (run {} bareRequest)).2 with
    | error e =>
      rw [hx] at he
      cases he
    | ok y =>
      rw [hx] at hr he
      obtain ⟨before, w, after, base, hh, -, -, -, -, -, lost⟩ := resolved _ y hr
      rw [hh] at hr
      have untold := lost textless rfl
      have succeeded : ∀ x ∈ before, writeError? x = none := by
        intro x hx
        obtain ⟨-, -, failed⟩ := attempted before _ hr.attempts
        cases hw : writeError? x with
        | none => rfl
        | some e => cases failed ⟨x, hx, by simp [hw]⟩
      rcases rejected _ _ untold with ⟨hs, -⟩ | ⟨-, x, -, -, -, hs, -⟩
      · have saved : y.result ∈ storedResults (before ++ [⟨.saveResult y.result, .ok ()⟩,
            notice "case-1" y.combined (.error textless), failureCount]) :=
          List.mem_filterMap.2 ⟨⟨.saveResult y.result, .ok ()⟩, by simp, rfl⟩
        cases hs ▸ saved
      · exact ⟨before, w, after, y, x, hr, Option.some.inj he, succeeded, untold, hs⟩
  · have hr := returns_trace (bareWorld default (.error (.value .null)) (.ok ())) (run {} bareRequest)
    have he : (trace (bareWorld default (.error (.value .null)) (.ok ())) (run {} bareRequest)).2 =
        .error (.failure (.persistence "eligibility result" (.value .null))) := rfl
    rw [he] at hr
    rcases rejected _ _ hr with ⟨hs, hn⟩ | ⟨-, -, -, -, -, -, -, -, -, hf⟩
    · exact ⟨_, _, hr, hs, hn⟩
    · cases hf

/-- A check may fail with its result stored and the notification made. -/
theorem fails_with_stored_result :
    ∃ h x, Returns (run {} bareRequest) h (.error (.failure .noText)) ∧ storedResults h = [x] ∧
      x.escalated = true ∧ (notifications h).length = 1 := by
  have hr := returns_trace (bareWorld default (.ok ()) (.error textless)) (run {} bareRequest)
  have ended : (trace (bareWorld default (.ok ()) (.error textless))
      (run {} bareRequest)).2.toOption.isNone = true := by decide +kernel
  have escalated : (storedResults (trace (bareWorld default (.ok ()) (.error textless))
      (run {} bareRequest)).1).map (·.escalated) = [true] := by decide +kernel
  have notified : (notifications (trace (bareWorld default (.ok ()) (.error textless))
      (run {} bareRequest)).1).length = 1 := by decide +kernel
  obtain ⟨x, stored, hx⟩ := List.map_eq_singleton_iff.1 escalated
  cases he : (trace (bareWorld default (.ok ()) (.error textless)) (run {} bareRequest)).2 with
  | ok y =>
    rw [he] at ended
    cases ended
  | error e =>
    rw [he] at hr
    rcases writes_run_error hr with ⟨hs, -⟩ | ⟨-, -, -, -, -, -, -, -, rfl⟩
    · rw [hs] at stored
      cases stored
    · exact ⟨_, x, hr, stored, hx, notified⟩

end VisaEligibility.Check
