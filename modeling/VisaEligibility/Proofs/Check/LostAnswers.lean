import VisaEligibility.Proofs.Check.Grounding
import VisaEligibility.Proofs.Check.Rejection
/-!
Checks that lose the model. A check whose model does not answer, or answers without an outcome, does
what the same check does that never asks: it stores the verdict of the rules and tells the case the
same.
-/
set_option autoImplicit false

namespace VisaEligibility

open Program

/-- The results differ at most in what they say about the model, and in id and time. -/
def EligibilityResult.SameVerdict (x y : EligibilityResult) : Prop :=
  y = { x with id := y.id, summary := y.summary, reasoningLogId := y.reasoningLogId,
               aiUnavailable := y.aiUnavailable, createdAt := y.createdAt }

namespace Check

def readVersion? : Exchange Call.interface → Option RuleVersion
  | ⟨.ruleVersion _ _, .ok v⟩ => some v
  | _ => none

def readVersions (h : History Call.interface) : List RuleVersion := h.filterMap readVersion?

theorem readVersions_append (h h' : History Call.interface) :
    readVersions (h ++ h') = readVersions h ++ readVersions h' := List.filterMap_append

def triedResult? : Exchange Call.interface → Option EligibilityResult
  | ⟨.saveResult x, _⟩ => some x
  | _ => none

def triedResults (h : History Call.interface) : List EligibilityResult := h.filterMap triedResult?

theorem triedResults_append (h h' : History Call.interface) :
    triedResults (h ++ h') = triedResults h ++ triedResults h' := List.filterMap_append

/-- Exchanges that follow a decision: they write and tell what it says. -/
structure Follows (s : EngineSettings) (r : CheckRequest) (d : Decision)
    (h : History Call.interface) : Prop where
  versions : readVersions h = []
  answers : answers h = []
  results : ∀ y ∈ triedResults h, ∃ log id time, y = d.result s r log id time
  notified : ∀ n ∈ notifications h, ∃ w, n = notice r.caseId (d.combined s) w

section Parts

variable {s : EngineSettings} {r : CheckRequest} {facts : Facts} {asOf : Instant} {d : Decision}
  {h h' : History Call.interface}

theorem Follows.append (hf : Follows s r d h) (hf' : Follows s r d h') :
    Follows s r d (h ++ h') := by
  constructor
  · rw [readVersions_append, hf.versions, hf'.versions]
    rfl
  · rw [answers_append, hf.answers, hf'.answers]
    rfl
  · rw [triedResults_append]
    exact List.forall_mem_append.2 ⟨hf.results, hf'.results⟩
  · rw [notifications_append]
    exact List.forall_mem_append.2 ⟨hf.notified, hf'.notified⟩

theorem AnswerStored.follows {x : Except Raised (Option ReasoningLog × List Citation)}
    (ha : AnswerStored r.caseId d.ai h x) : Follows s r d h := by
  have parts : readVersions h = [] ∧ VisaEligibility.answers h = [] ∧ triedResults h = [] := by
    cases ha <;> simp [readVersions, readVersion?, VisaEligibility.answers, answer?, triedResults,
      triedResult?, stamp]
  obtain ⟨versions, unanswered, untried⟩ := parts
  refine ⟨versions, unanswered, ?_, ?_⟩
  · simp [untried]
  · simp [ha.silent.2]

theorem follows_saving (log : Option ReasoningLog) (id : String) (time : Instant)
    (w : Except Raised Unit) : Follows s r d (saving id time (d.result s r log id time) w) := by
  have one : triedResults (saving id time (d.result s r log id time) w) =
      [d.result s r log id time] := rfl
  refine ⟨rfl, rfl, ?_, ?_⟩
  · intro y hy
    rw [one] at hy
    exact ⟨log, id, time, List.mem_singleton.1 hy⟩
  · simp [saving, stamp, notifications, Call.writeStage?]

theorem Storing.follows {x : Except Raised Stored} (hs : Storing s r d h x) : Follows s r d h := by
  cases hs with
  | answerLost answer => exact answer.follows
  | resultFailed answer id time e => exact answer.follows.append (follows_saving ..)
  | stored answer id time => exact answer.follows.append (follows_saving ..)

theorem follows_counts (hh : ∀ x ∈ h, ∃ c, x = ⟨.count c, ()⟩) : Follows s r d h := by
  have none {β : Type} {f : Exchange Call.interface → Option β} (hf : ∀ c, f ⟨.count c, ()⟩ = none) :
      h.filterMap f = [] := by
    refine List.filterMap_eq_nil_iff.2 fun x hx => ?_
    obtain ⟨c, rfl⟩ := hh x hx
    exact hf c
  have untold : notifications h = [] := by
    refine List.filter_eq_nil_iff.2 fun x hx => ?_
    obtain ⟨c, rfl⟩ := hh x hx
    simp [Call.writeStage?]
  refine ⟨none fun _ => rfl, none fun _ => rfl, ?_, ?_⟩
  · simp [triedResults, none (f := triedResult?) fun _ => rfl]
  · simp [untold]

theorem follows_notice (w : Except Raised Unit) :
    Follows s r d [notice r.caseId (d.combined s) w] := by
  have parts : readVersions [notice r.caseId (d.combined s) w] = [] ∧
      VisaEligibility.answers [notice r.caseId (d.combined s) w] = [] ∧
      triedResults [notice r.caseId (d.combined s) w] = [] := by
    unfold notice
    split <;> exact ⟨rfl, rfl, rfl⟩
  obtain ⟨versions, unanswered, untried⟩ := parts
  refine ⟨versions, unanswered, ?_, ?_⟩
  · simp [untried]
  · intro n hn
    exact ⟨w, List.mem_singleton.1 (List.mem_filter.1 hn).1⟩

theorem Concluding.follows {y : Stored} {x : Except Raised CheckReport}
    (hc : Concluding s r d y h x) : Follows s r d h := by
  cases hc with
  | told w hw =>
    refine (follows_notice w).append (follows_counts fun z hz => ?_)
    rcases List.mem_append.1 hz with hz | hz
    · unfold tally at hz
      split at hz
      · obtain ⟨reason, -, rfl⟩ := List.mem_map.1 hz
        exact ⟨_, rfl⟩
      · cases hz
    · exact ⟨_, List.mem_singleton.1 hz⟩
  | untold e he => exact follows_notice _

theorem follows_failureCount : Follows s r d [failureCount] :=
  follows_counts fun _ hx => ⟨_, List.mem_singleton.1 hx⟩

end Parts

/-- A check that is carried out: it has read one version, decided by it, and follows the decision. -/
structure Performed (s : EngineSettings) (r : CheckRequest) (facts : Facts)
    (h : History Call.interface) (x : Except Raised CheckReport) (d : Decision) : Prop where
  version : ∃ v, readVersions h = [v] ∧ d.rule = v.evaluate facts s.thresholds
  unasked : asksModel s r = false → d.ai.completed = none
  unavailable : d.ai.status = .unavailable → answers h = []
  answered : ∀ c, d.ai.completed = some c →
    answers h = [c.answer] ∧ c.verdict.conclusion = Response.conclusion c.answer.text
  results : ∀ y ∈ triedResults h, ∃ log id time, y = d.result s r log id time
  notified : ∀ n ∈ notifications h, ∃ w, n = notice r.caseId (d.combined s) w
  reported : ∀ y, x = .ok y → y.result ∈ triedResults h ∧ y.rule = d.rule ∧
    y.combined = d.combined s

section Runs

variable {s : EngineSettings} {r : CheckRequest} {facts : Facts} {h : History Call.interface}
  {x : Except Raised CheckReport}

theorem triedResults_of_quiet (quiet : Quiet h) : triedResults h = [] := by
  refine List.filterMap_eq_nil_iff.2 fun x hx => ?_
  have unwritten := quiet x hx
  obtain ⟨c, a⟩ := x
  cases c <;> first | rfl | cases unwritten

theorem readVersions_of_remote (hh : ∀ x ∈ h, x.call.isRemote = true) : readVersions h = [] := by
  refine List.filterMap_eq_nil_iff.2 fun x hx => ?_
  have remote := hh x hx
  obtain ⟨c, a⟩ := x
  cases c <;> first | rfl | cases remote

theorem Performed.of_decided {h₁ h₂ h₃ : History Call.interface} {asOf : Instant} {d : Decision}
    (dated : Returns (evaluationDate r) h₁ asOf)
    (decided : Returns (decision s r facts asOf).run h₂ (.ok d)) (follows : Follows s r d h₃)
    (reported : ∀ y, x = .ok y → y.result ∈ triedResults h₃ ∧ y.rule = d.rule ∧
      y.combined = d.combined s) : Performed s r facts (h₁ ++ h₂ ++ h₃) x d := by
  have quiet := (quiet_evaluationDate dated).append (quiet_decision decided)
  have tried : triedResults (h₁ ++ h₂ ++ h₃) = triedResults h₃ := by
    rw [triedResults_append, triedResults_of_quiet quiet]
    rfl
  constructor
  case version =>
    have undated : readVersions h₁ = [] := by
      rcases eq_of_returns_evaluationDate dated with rfl | rfl <;> rfl
    cases Deciding.of_returns decided with
    | decided v asked =>
      refine ⟨v, ?_, rfl⟩
      have read := readVersions_of_remote (remote_askModel asked)
      rw [readVersions_append, readVersions_append, undated, follows.versions, List.append_nil]
      exact congrArg (v :: ·) read
  case unasked =>
    intro unasked
    cases Deciding.of_returns decided with
    | decided v asked =>
      rw [askModel, unasked] at asked
      cases (returns_done.1 asked).2
      rfl
  case unavailable =>
    intro status
    rw [answers_append, follows.answers, List.append_nil]
    refine (Decided.of_returns dated decided).lost ?_
    cases Deciding.of_returns decided with
    | decided v asked => exact completed_of_unavailable asked status
  case answered =>
    intro c hc
    obtain ⟨answered, concluded⟩ := (Decided.of_returns dated decided).answered c hc
    rw [answers_append, follows.answers, List.append_nil]
    exact ⟨answered.answers_eq, concluded⟩
  case results =>
    rw [tried]
    exact follows.results
  case notified =>
    rw [notifications_append, quiet.silent.2]
    exact follows.notified
  case reported =>
    rw [tried]
    exact reported

theorem Course.followed (hc : Course s r facts h x) :
    (triedResults h = [] ∧ notifications h = [] ∧ ∃ e, x = .error e) ∨
      ∃ h₁ asOf h₂ d h₃, h = h₁ ++ h₂ ++ h₃ ∧ Returns (evaluationDate r) h₁ asOf ∧
        Returns (decision s r facts asOf).run h₂ (.ok d) ∧ Follows s r d h₃ ∧
        ∀ y, x = .ok y → y.result ∈ triedResults h₃ ∧ y.rule = d.rule ∧ y.combined = d.combined s := by
  cases hc with
  | undecided dated failed =>
    have quiet := ((quiet_evaluationDate dated).append (quiet_decision failed)).append
      quiet_failureCount
    exact .inl ⟨triedResults_of_quiet quiet, quiet.silent.2, _, rfl⟩
  | @unstored h₁ h₂ h₃ asOf d e dated decided failed =>
    have follows := (Storing.of_returns failed).follows.append follows_failureCount
    exact .inr ⟨h₁, asOf, h₂, d, h₃ ++ [failureCount], List.append_assoc .., dated, decided, follows,
      fun y hy => nomatch hy⟩
  | @untold h₁ h₂ h₃ h₄ asOf d y e dated decided stored failed =>
    have follows := ((Storing.of_returns stored).follows.append
      (returns_conclude.1 failed).follows).append follows_failureCount
    refine .inr ⟨h₁, asOf, h₂, d, h₃ ++ h₄ ++ [failureCount], ?_, dated, decided, follows,
      fun y hy => nomatch hy⟩
    simp only [List.append_assoc]
  | @concluded h₁ h₂ h₃ h₄ asOf d y z dated decided stored last =>
    have storing := Storing.of_returns stored
    have concluding := returns_conclude.1 last
    refine .inr ⟨h₁, asOf, h₂, d, h₃ ++ h₄, List.append_assoc .., dated, decided,
      storing.follows.append concluding.follows, fun y hy => ?_⟩
    cases hy
    obtain ⟨h', rfl, -⟩ := storing.writes_ok
    cases concluding with
    | told w hw => exact ⟨by simp [report, triedResults, triedResult?], rfl, rfl⟩

theorem Course.performed (hc : Course s r facts h x) :
    (triedResults h = [] ∧ notifications h = [] ∧ ∃ e, x = .error e) ∨
      ∃ d, Performed s r facts h x d := by
  rcases hc.followed with nothing | ⟨h₁, asOf, h₂, d, h₃, rfl, dated, decided, follows, reported⟩
  · exact .inl nothing
  · exact .inr ⟨d, .of_decided dated decided follows reported⟩

theorem Performed.combined_of_unanswered {d : Decision} (unanswered : d.ai.completed = none) :
    d.combined s = CombinedVerdict.combine d.rule.verdict none s.thresholds := by
  simp [Decision.combined, AiPart.verdict, unanswered]

def Lost (h : History Call.interface) : Prop :=
  ∀ a ∈ answers h, Response.conclusion a.text = none

theorem Performed.combined_of_lost {d : Decision} (performed : Performed s r facts h x d)
    (lost : Lost h) :
    d.combined s = CombinedVerdict.combine d.rule.verdict none s.thresholds := by
  cases hc : d.ai.completed with
  | none => exact combined_of_unanswered hc
  | some c =>
    unfold Decision.combined AiPart.verdict
    rw [hc]
    obtain ⟨answered, concluded⟩ := performed.answered c hc
    have unknown : c.verdict.conclusion = none := by
      rw [concluded]
      exact lost c.answer (by simp [answered])
    rcases hv : c.verdict with ⟨conclusion, confidence⟩
    rw [hv] at unknown
    cases unknown
    rw [Option.map_some, hv]
    rfl

theorem Performed.agree {s' : EngineSettings} {r' : CheckRequest} {h' : History Call.interface}
    {x' : Except Raised CheckReport} {d d' : Decision} (performed : Performed s r facts h x d)
    (performed' : Performed s' r' facts h' x' d') (thresholds : s'.thresholds = s.thresholds)
    (version : readVersions h = readVersions h')
    (ruled : d.combined s = CombinedVerdict.combine d.rule.verdict none s.thresholds)
    (ruled' : d'.combined s' = CombinedVerdict.combine d'.rule.verdict none s'.thresholds) :
    d.rule = d'.rule ∧ d.combined s = d'.combined s' := by
  obtain ⟨v, read, rule⟩ := performed.version
  obtain ⟨v', read', rule'⟩ := performed'.version
  obtain rfl : v = v' := by
    rw [read, read'] at version
    exact List.head_eq_of_cons_eq version
  have rules : d.rule = d'.rule := by rw [rule, rule', thresholds]
  exact ⟨rules, by rw [ruled, ruled', rules, thresholds]⟩

theorem Course.told {y : CheckReport} (course : Course s r facts h (.ok y)) :
    storedResults h = [y.result] ∧ ∃ w, notifications h = [notice r.caseId y.combined w] := by
  obtain ⟨before, w, after, base, rfl, silent, quiet, -⟩ := course.writes_ok
  have unstored : storedResult? (notice r.caseId y.combined w) = none := by
    unfold notice
    split <;> rfl
  have rest := quiet.silent
  refine ⟨?_, w, ?_⟩
  · rw [storedResults_append, silent.1, storedResults, List.filterMap_cons, List.filterMap_cons,
      unstored]
    exact congrArg (y.result :: ·) rest.1
  · rw [notifications_append, silent.2]
    simp only [notifications, List.filter_cons, writeStage?_notice]
    exact congrArg (notice r.caseId y.combined w :: ·) rest.2

/-- A write has failed, or a notification in a way that cannot be reported. -/
def Hindered (r : CheckRequest) (h : History Call.interface) : Prop :=
  (∃ x ∈ h, writeError? x ≠ none) ∨
    ∃ c lost, notice r.caseId c (.error lost) ∈ h ∧ lost.hasText = false

/-- A check that has read a version comes to a report whatever the model does. -/
theorem Course.reports (configured : Configured s.retrieval s.reasoning) (valid : facts.Dated)
    (course : Course s r facts h x) (read : readVersions h ≠ []) :
    (∃ y, x = .ok y) ∨ Hindered r h := by
  cases x with
  | ok y => exact .inl ⟨y, rfl⟩
  | error e =>
    rcases course.error configured with ⟨h₁, asOf, e', dated, rfl, -⟩ | failed | untold |
      ⟨-, invalid, -⟩
    · refine absurd ?_ read
      rcases eq_of_returns_evaluationDate dated with rfl | rfl <;> rfl
    · exact .inr (.inl failed)
    · exact .inr (.inr untold)
    · exact absurd valid invalid

theorem notice_call (caseId : String) (c : CombinedVerdict) (w w' : Except Raised Unit) :
    (notice caseId c w).call = (notice caseId c w').call := by
  unfold notice
  split <;> rfl

theorem sameVerdict_of_combined {s s' : EngineSettings} {r r' : CheckRequest} {d d' : Decision}
    (hr : r'.caseId = r.caseId ∧ r'.visaTypeId = r.visaTypeId) (rule : d'.rule = d.rule)
    (combined : d'.combined s' = d.combined s) (log log' : Option ReasoningLog) (id id' : String)
    (time time' : Instant) :
    (d.result s r log id time).SameVerdict (d'.result s' r' log' id' time') := by
  simp [EligibilityResult.SameVerdict, Decision.result, makeResult, rule, combined, hr.1, hr.2]

/-- Losing the model does not change the verdict. A check whose model gives no outcome, as when it
stores that the model was unavailable or when no answer states one, and the same check without AI
reasoning decide the same: what they store differs at most in what it says about the model, and what
they tell the case does not differ. Where the one without AI reasoning comes to a report, so does the
other, unless its writes fail. -/
theorem lost_answer_keeps_verdict {s s' : EngineSettings} {r r' : CheckRequest}
    (thresholds : s'.thresholds = s.thresholds)
    (same : r'.caseId = r.caseId ∧ r'.visaTypeId = r.visaTypeId)
    (disabled : asksModel s' r' = false) {facts : Facts} {h h' : History Call.interface}
    {x x' : Except Raised CheckReport}
    (asking : Returns (run s r) (⟨.facts r.caseId, .ok facts⟩ :: h) x)
    (plain : Returns (run s' r') (⟨.facts r.caseId, .ok facts⟩ :: h') x')
    (version : readVersions h = readVersions h') :
    (∀ y ∈ triedResults h, y.aiUnavailable = true → Lost h) ∧
    (Lost h →
      (∀ y ∈ triedResults h, ∀ y' ∈ triedResults h', y'.SameVerdict y) ∧
      (∀ n ∈ notifications h, ∀ n' ∈ notifications h', n.call = n'.call) ∧
      ∀ y y', x = .ok y → x' = .ok y' →
        storedResults h = [y.result] ∧ storedResults h' = [y'.result] ∧
        y'.result.SameVerdict y.result ∧ y.rule = y'.rule ∧ y.combined = y'.combined ∧
        ∃ n n', notifications h = [n] ∧ notifications h' = [n'] ∧ n.call = n'.call) ∧
    (Configured s.retrieval s.reasoning → facts.Dated → ∀ y', x' = .ok y' →
      (∃ y, x = .ok y) ∨ Hindered r h) := by
  have course {s : EngineSettings} {r : CheckRequest} {facts : Facts}
      {h : History Call.interface} {x : Except Raised CheckReport} {caseId : String}
      (hr : Returns (run s r) (⟨.facts caseId, .ok facts⟩ :: h) x) : Course s r facts h x := by
    rcases returns_run.1 hr with ⟨e, -, hh⟩ | ⟨facts', h', hh, hc⟩
    · cases hh
    · cases hh
      exact hc
  refine ⟨?_, ?_, ?_⟩
  · intro y hy unavailable
    rcases (course asking).performed with ⟨untried, -⟩ | ⟨d, performed⟩
    · simp [untried] at hy
    obtain ⟨log, id, time, rfl⟩ := performed.results y hy
    have status : d.ai.status = .unavailable := of_decide_eq_true unavailable
    simp [Lost, performed.unavailable status]
  · intro lost
    rcases (course asking).performed with ⟨untried, untold, e, rfl⟩ | ⟨d, performed⟩
    · simp [untried, untold]
    rcases (course plain).performed with ⟨untried, untold, e, rfl⟩ | ⟨d', performed'⟩
    · simp [untried, untold]
    obtain ⟨rules, combined⟩ := performed.agree performed' thresholds version
      (performed.combined_of_lost lost)
      (Performed.combined_of_unanswered (performed'.unasked disabled))
    have results : ∀ y ∈ triedResults h, ∀ y' ∈ triedResults h', y'.SameVerdict y := by
      intro y hy y' hy'
      obtain ⟨log, id, time, rfl⟩ := performed.results y hy
      obtain ⟨log', id', time', rfl⟩ := performed'.results y' hy'
      exact sameVerdict_of_combined ⟨same.1.symm, same.2.symm⟩ rules combined ..
    have told : ∀ n ∈ notifications h, ∀ n' ∈ notifications h', n.call = n'.call := by
      intro n hn n' hn'
      obtain ⟨w, rfl⟩ := performed.notified n hn
      obtain ⟨w', rfl⟩ := performed'.notified n' hn'
      rw [combined, same.1]
      exact notice_call ..
    refine ⟨results, told, ?_⟩
    rintro y y' rfl rfl
    obtain ⟨stored, w, one⟩ := (course asking).told
    obtain ⟨stored', w', one'⟩ := (course plain).told
    obtain ⟨tried, hr, hc⟩ := performed.reported y rfl
    obtain ⟨tried', hr', hc'⟩ := performed'.reported y' rfl
    refine ⟨stored, stored', results _ tried _ tried', ?_, ?_, _, _, one, one', ?_⟩
    · rw [hr, hr', rules]
    · rw [hc, hc', combined]
    · exact told _ (by simp [one]) _ (by simp [one'])
  · rintro configured valid y' rfl
    refine (course asking).reports configured valid ?_
    rcases (course plain).performed with ⟨-, -, e, ended⟩ | ⟨d', performed'⟩
    · cases ended
    obtain ⟨v, read, -⟩ := performed'.version
    simp [version, read]

end Runs

def vagueWorld : (c : Call) → Call.Reply c
  | .embedding _ _ => .ok [1]
  | .completion _ _ _ => .ok ⟨"CONFIDENCE: 0.9", "mock-model", none⟩
  | c => bareWorld default (.ok ()) (.ok ()) c

def vagueSettings : EngineSettings := { retrieval := { embeddingDimensions := some 1 } }

def vagueRun (enableAi : Option Bool) : History Call.interface × Except Raised CheckReport :=
  trace vagueWorld (overFacts vagueSettings { bareRequest with enableAi } .empty)

theorem returns_vagueRun (enableAi : Option Bool) :
    Returns (run vagueSettings { bareRequest with enableAi })
      (⟨.facts "case-1", .ok .empty⟩ :: (vagueRun enableAi).1) (vagueRun enableAi).2 :=
  returns_trace (I := Call.interface) vagueWorld (run vagueSettings { bareRequest with enableAi })

theorem readVersions_vagueRun {enableAi : Option Bool}
    (one : (readVersions (vagueRun enableAi).1).length = 1) :
    readVersions (vagueRun enableAi).1 = [default] := by
  obtain ⟨v, hv⟩ := List.length_eq_one_iff.1 one
  have read : v ∈ readVersions (vagueRun enableAi).1 := by simp [hv]
  obtain ⟨x, hx, hv'⟩ := List.mem_filterMap.1 read
  rw [eq_of_mem_trace hx] at hv'
  generalize x.call = c at hv'
  cases c <;> cases hv'
  exact hv

theorem reported_of_logId {x : Except Raised CheckReport} {id : Option String}
    (hx : x.toOption.map (fun y => y.result.reasoningLogId) = some id) :
    ∃ y, x = .ok y ∧ y.result.reasoningLogId = id := by
  cases x with
  | error e => cases hx
  | ok y => exact ⟨y, rfl, Option.some.inj hx⟩

/-- The vague answer is stored, and it changes nothing but what the result says about it. -/
theorem lost_answer_keeps_verdict_vague :
    readVersions (vagueRun none).1 = readVersions (vagueRun (some false)).1 ∧
      Lost (vagueRun none).1 ∧
      ∃ y y', (vagueRun none).2 = .ok y ∧ (vagueRun (some false)).2 = .ok y' ∧
        storedResults (vagueRun none).1 = [y.result] ∧
        storedResults (vagueRun (some false)).1 = [y'.result] ∧
        y'.result.SameVerdict y.result ∧ y.result.reasoningLogId = some "id-1" ∧
        y'.result.reasoningLogId = none := by
  have version : readVersions (vagueRun none).1 = readVersions (vagueRun (some false)).1 :=
    (readVersions_vagueRun (by decide +kernel)).trans
      (readVersions_vagueRun (by decide +kernel)).symm
  have lost : Lost (vagueRun none).1 := by
    have answered : (answers (vagueRun none).1).map (fun a => Response.conclusion a.text) =
        [none] := by decide +kernel
    intro a ha
    have := List.mem_map_of_mem (f := fun a => Response.conclusion a.text) ha
    rw [answered] at this
    exact List.mem_singleton.1 this
  have answered : (vagueRun none).2.toOption.map (fun y => y.result.reasoningLogId) =
      some (some "id-1") := by decide +kernel
  have unasked : (vagueRun (some false)).2.toOption.map (fun y => y.result.reasoningLogId) =
      some none := by decide +kernel
  obtain ⟨y, hy, named⟩ := reported_of_logId answered
  obtain ⟨y', hy', unnamed⟩ := reported_of_logId unasked
  have asking := returns_vagueRun none
  have plain := returns_vagueRun (some false)
  have disabled : asksModel vagueSettings { bareRequest with enableAi := some false } = false := rfl
  have kept := lost_answer_keeps_verdict (by rfl) ⟨by rfl, by rfl⟩ disabled asking plain version
  obtain ⟨stored, stored', same, -⟩ := (kept.2.1 lost).2.2 y y' hy hy'
  exact ⟨version, lost, y, y', hy, hy', stored, stored', same, named, unnamed⟩

end Check
end VisaEligibility
