import VisaEligibility.Proofs.Check.Writes
import VisaEligibility.Proofs.Program.Guarding
import VisaEligibility.Proofs.Reasoning.Answers
/-!
What the writes of a check rest on. Before a check writes anything it has asked the model, if at all;
the log it stores carries a new id, the citations name the log that is stored, and the result names
it too if the model has answered. All this holds at every point of a check, whatever fails.
-/
set_option autoImplicit false

namespace VisaEligibility

open Program

def newId? : Exchange Call.interface → Option String
  | ⟨.newId, id⟩ => some id
  | _ => none

def newIds (h : History Call.interface) : List String := h.filterMap newId?

theorem newIds_append (h h' : History Call.interface) : newIds (h ++ h') = newIds h ++ newIds h' :=
  List.filterMap_append

namespace Check

def storedLog? : Exchange Call.interface → Option ReasoningLog
  | ⟨.saveLog l, .ok ()⟩ => some l
  | _ => none

def storedLogs (h : History Call.interface) : List ReasoningLog := h.filterMap storedLog?

def citationsOf : Exchange Call.interface → List Citation
  | ⟨.saveCitations cs, .ok ()⟩ => cs
  | _ => []

def storedCitations (h : History Call.interface) : List Citation := h.flatMap citationsOf

theorem eq_of_storedLog? {x : Exchange Call.interface} {l : ReasoningLog}
    (hl : storedLog? x = some l) : x = ⟨.saveLog l, .ok ()⟩ := by
  unfold storedLog? at hl
  split at hl
  · cases hl
    rfl
  · cases hl

theorem eq_of_storedResult? {x : Exchange Call.interface} {y : EligibilityResult}
    (hy : storedResult? x = some y) : x = ⟨.saveResult y, .ok ()⟩ := by
  unfold storedResult? at hy
  split at hy
  · cases hy
    rfl
  · cases hy

theorem eq_of_mem_citationsOf {x : Exchange Call.interface} {c : Citation}
    (hc : c ∈ citationsOf x) : ∃ cs, x = ⟨.saveCitations cs, .ok ()⟩ ∧ c ∈ cs := by
  unfold citationsOf at hc
  split at hc
  · exact ⟨_, rfl, hc⟩
  · cases hc

theorem mem_storedLogs {h : History Call.interface} {l : ReasoningLog} :
    l ∈ storedLogs h ↔ ⟨.saveLog l, .ok ()⟩ ∈ h := by
  constructor
  · intro hl
    obtain ⟨x, hx, hl⟩ := List.mem_filterMap.1 hl
    exact eq_of_storedLog? hl ▸ hx
  · intro hx
    exact List.mem_filterMap.2 ⟨_, hx, rfl⟩

theorem mem_storedResults {h : History Call.interface} {x : EligibilityResult} :
    x ∈ storedResults h ↔ ⟨.saveResult x, .ok ()⟩ ∈ h := by
  constructor
  · intro hy
    obtain ⟨y, hx, hy⟩ := List.mem_filterMap.1 hy
    exact eq_of_storedResult? hy ▸ hx
  · intro hx
    exact List.mem_filterMap.2 ⟨_, hx, rfl⟩

theorem mem_storedCitations {h : History Call.interface} {c : Citation} :
    c ∈ storedCitations h ↔ ∃ cs, ⟨.saveCitations cs, .ok ()⟩ ∈ h ∧ c ∈ cs := by
  constructor
  · intro hc
    obtain ⟨x, hx, hc⟩ := List.mem_flatMap.1 hc
    obtain ⟨cs, rfl, hc⟩ := eq_of_mem_citationsOf hc
    exact ⟨cs, hx, hc⟩
  · rintro ⟨cs, hx, hc⟩
    exact List.mem_flatMap.2 ⟨_, hx, hc⟩

theorem storedLogs_append (h h' : History Call.interface) :
    storedLogs (h ++ h') = storedLogs h ++ storedLogs h' := List.filterMap_append

theorem storedCitations_append (h h' : History Call.interface) :
    storedCitations (h ++ h') = storedCitations h ++ storedCitations h' := List.flatMap_append

/-- A result that says what the rules alone come to. -/
structure DecidedByRules (s : EngineSettings) (rule : RuleEvaluation) (x : EligibilityResult) :
    Prop where
  conclusion : x.conclusion = .outcome rule.outcome
  confidence : x.confidence = rule.confidence
  missing : x.missingFacts = rule.missingFacts
  conflict : x.conflictDetected = false
  escalated : x.escalated = (CombinedVerdict.combine rule.verdict none s.thresholds).escalate

/-- What a result rests on: an answer of the model, whose log it names and whose citations are
stored under that log, or the rules in force alone. -/
inductive Grounded (s : EngineSettings) (r : CheckRequest) (facts : Facts)
    (h : History Call.interface) (x : EligibilityResult) : Prop where
  | answered {a : ModelAnswer} {excerpts : List Excerpt} {l : ReasoningLog}
      (completed : Reasoning.Answered s.retrieval h a excerpts) (stored : l ∈ storedLogs h)
      (named : x.reasoningLogId = some l.id)
      (cited : ∀ e ∈ excerpts, ⟨l.id, e⟩ ∈ storedCitations h)
  | unanswered {v : RuleVersion} {asOf : Instant} (lost : answers h = [])
      (unnamed : x.reasoningLogId = none) (read : ⟨.ruleVersion r.visaTypeId asOf, .ok v⟩ ∈ h)
      (decided : DecidedByRules s (v.evaluate facts s.thresholds) x)

/-- What has gone before a call of a check. -/
def Entitled (s : EngineSettings) (r : CheckRequest) (facts : Facts)
    (h : History Call.interface) : Call → Prop
  | .search _ _ _ _ _ => Quiet h
  | .completion _ _ _ => Quiet h
  | .saveLog l => Quiet h ∧ l.id ∈ newIds h ∧ l.caseId = r.caseId
  | .saveCitations cs => ∃ l ∈ storedLogs h, ∀ c ∈ cs, c.reasoningLogId = l.id
  | .saveResult x => storedResults h = [] ∧ x.caseId = r.caseId ∧ Grounded s r facts h x
  | _ => True

section Parts

variable {s : EngineSettings} {r : CheckRequest} {facts : Facts} {asOf : Instant}
  {d : Decision} {before : History Call.interface}

theorem entitled_of_remote (quiet : Quiet before) {c : Call} (hc : c.isRemote = true) :
    Entitled s r facts before c := by
  cases c <;> first | exact quiet | trivial

theorem guarded_evaluationDate :
    Guarded (Entitled s r facts) before (evaluationDate r) := by
  unfold evaluationDate
  split
  · exact guarded_done _
  · exact guarded_perform.2 trivial

theorem guarded_decision (quiet : Quiet before) :
    Guarded (Entitled s r facts) before (decision s r facts asOf).run := by
  refine Attempt.guarded_bind (guarded_perform.2 trivial) fun h v hv => ?_
  obtain rfl := returns_perform.1 hv
  refine Attempt.guarded_bind ?_ fun h ai _ => guarded_done _
  refine (only_askModel s r facts _).guarded fun h c hh hc => entitled_of_remote ?_ hc
  have version : Quiet [⟨.ruleVersion r.visaTypeId asOf, .ok v⟩] := by
    simp [Quiet, Call.writeStage?]
  exact (quiet.append version).append (quiet_of_remote hh)

theorem guarded_persist {entity : String} {write : Engine (Except Raised Unit)}
    {P : History Call.interface → Call → Prop} (hw : Guarded P before write) :
    Guarded P before (persist entity write).run := by
  refine hw.bind fun h x _ => ?_
  cases x with
  | ok u => exact guarded_done _
  | error e => exact guarded_done _

theorem returns_persist_ok {entity : String} {write : Engine (Except Raised Unit)}
    {h : History Call.interface} {u : Unit}
    (hr : Returns (persist entity write).run h (.ok u)) : Returns write h (.ok ()) := by
  obtain ⟨h₁, x, h₂, rfl, hx, hd⟩ := returns_bind.1 hr
  cases x with
  | ok u =>
    obtain ⟨rfl, -⟩ := returns_done.1 hd
    simpa using hx
  | error e => cases (returns_done.1 hd).2

theorem guarded_stamped {α : Type} {f : String → Instant → Step α}
    (hf : ∀ id time, Guarded (Entitled s r facts) (before ++ stamp id time) (f id time).run) :
    Guarded (Entitled s r facts) before
      (lift Engine.newId >>= fun id => lift Engine.now >>= f id).run := by
  refine Attempt.guarded_bind (Attempt.guarded_lift (guarded_perform.2 trivial)) fun h id hi => ?_
  refine Attempt.guarded_bind (Attempt.guarded_lift (guarded_perform.2 trivial)) fun h' time ht => ?_
  obtain ⟨id', he, hi⟩ := Attempt.returns_lift.1 hi
  obtain ⟨time', he', ht⟩ := Attempt.returns_lift.1 ht
  cases he
  cases he'
  obtain rfl := returns_perform.1 hi
  obtain rfl := returns_perform.1 ht
  simpa [stamp] using hf id time

theorem guarded_storeAnswer (quiet : Quiet before) {p : AiPart} :
    Guarded (Entitled s r facts) before (storeAnswer r.caseId p).run := by
  unfold storeAnswer
  cases p.completed with
  | none => exact guarded_done _
  | some c =>
    simp only [storeReasoning, LawfulMonad.bind_assoc]
    refine guarded_stamped fun id time => ?_
    have named : id ∈ newIds (before ++ stamp id time) := by simp [newIds, stamp, newId?]
    refine Attempt.guarded_bind (guarded_persist (guarded_perform.2
      ⟨quiet.append (quiet_stamp id time), named, rfl⟩)) fun h u hw => ?_
    obtain rfl := returns_perform.1 (returns_persist_ok hw)
    split
    · rw [LawfulMonad.bind_assoc]
      refine Attempt.guarded_bind (guarded_persist (guarded_perform.2 ?_))
        fun h u _ => guarded_done _
      refine ⟨logOf r.caseId c id time, ?_, ?_⟩
      · simp [storedLogs, storedLog?, logOf]
      · intro x hx
        obtain ⟨e, -, rfl⟩ := List.mem_map.1 hx
        rfl
    · exact guarded_done _

theorem AnswerStored.grounds {p : AiPart} {h : History Call.interface} {log : Option ReasoningLog}
    {citations : List Citation} (ha : AnswerStored r.caseId p h (.ok (log, citations))) :
    (p.completed = none ∧ log = none) ∨
      ∃ c l, p.completed = some c ∧ log = some l ∧ l ∈ storedLogs h ∧
        ∀ e ∈ c.excerpts, ⟨l.id, e⟩ ∈ storedCitations h := by
  cases ha with
  | unanswered hp => exact .inl ⟨hp, rfl⟩
  | uncited hp id time hc =>
    refine .inr ⟨_, _, hp, rfl, ?_, ?_⟩
    · simp [storedLogs, storedLog?, stamp]
    · simp [hc]
  | cited hp id time hc =>
    refine .inr ⟨_, _, hp, rfl, ?_, ?_⟩
    · simp [storedLogs, storedLog?, stamp]
    · simp [storedCitations, citationsOf, stamp, logOf]

theorem AnswerStored.unasked {p : AiPart} {h : History Call.interface}
    {x : Except Raised (Option ReasoningLog × List Citation)}
    (ha : AnswerStored r.caseId p h x) (id : String) (time : Instant) :
    answers (h ++ stamp id time) = [] ∧ findings (h ++ stamp id time) = [] := by
  cases ha <;> simp [answers, findings, answer?, finding?, stamp]

/-- What a decision rests on: the version in force, and the answer of the model if it was asked and
has answered. -/
structure Decided (s : EngineSettings) (r : CheckRequest) (facts : Facts)
    (h : History Call.interface) (d : Decision) : Prop where
  version : ∃ v asOf, ⟨.ruleVersion r.visaTypeId asOf, .ok v⟩ ∈ h ∧
    d.rule = v.evaluate facts s.thresholds
  lost : d.ai.completed = none → answers h = []
  answered : ∀ c, d.ai.completed = some c →
    Reasoning.Answered s.retrieval h c.answer c.excerpts ∧
      c.verdict.conclusion = Response.conclusion c.answer.text

theorem Decided.of_returns {h : History Call.interface}
    (dated : Returns (evaluationDate r) before asOf)
    (hr : Returns (decision s r facts asOf).run h (.ok d)) :
    Decided s r facts (before ++ h) d := by
  have undated : answers before = [] ∧ findings before = [] := by
    rcases eq_of_returns_evaluationDate dated with rfl | rfl <;> exact ⟨rfl, rfl⟩
  cases Deciding.of_returns hr with
  | decided v asked =>
    obtain ⟨lost, answered⟩ := answers_of_askModel asked
    refine ⟨⟨v, asOf, by simp, rfl⟩, fun hc => ?_, fun c hc => ?_⟩
    · rw [answers_append, undated.1]
      exact lost hc
    · have assessed := answered c hc
      refine ⟨assessed.cited.congr ?_ ?_, assessed.concluded⟩
      · rw [answers_append, undated.1]
        rfl
      · rw [findings_append, undated.2]
        rfl

theorem DecidedByRules.of_unanswered (unanswered : d.ai.completed = none)
    (log : Option ReasoningLog) (id : String) (time : Instant) :
    DecidedByRules s d.rule (d.result s r log id time) := by
  have silent : d.ai.verdict = none := by simp [AiPart.verdict, unanswered]
  constructor <;> simp [Decision.result, Decision.combined, makeResult, silent] <;> rfl

theorem Decided.grounds {h : History Call.interface} {log : Option ReasoningLog}
    {citations : List Citation} (decided : Decided s r facts before d)
    (ha : AnswerStored r.caseId d.ai h (.ok (log, citations))) (id : String) (time : Instant) :
    Grounded s r facts (before ++ (h ++ stamp id time)) (d.result s r log id time) := by
  obtain ⟨unasked, unfound⟩ := ha.unasked id time
  have same : answers (before ++ (h ++ stamp id time)) = answers before := by
    rw [answers_append, unasked, List.append_nil]
  rcases ha.grounds with ⟨unanswered, rfl⟩ | ⟨c, l, completed, rfl, stored, cited⟩
  · obtain ⟨v, asOf, read, rule⟩ := decided.version
    refine .unanswered (same.trans (decided.lost unanswered)) rfl
      (List.mem_append_left _ read) ?_
    rw [← rule]
    exact .of_unanswered unanswered none id time
  · obtain ⟨answered, -⟩ := decided.answered c completed
    have same' : findings (before ++ (h ++ stamp id time)) = findings before := by
      rw [findings_append, unfound, List.append_nil]
    have kept : l ∈ storedLogs (before ++ (h ++ stamp id time)) := by
      simp [storedLogs_append, stored]
    refine .answered (answered.congr same same') kept rfl fun e he => ?_
    simp [storedCitations_append, cited e he]

theorem guarded_store (quiet : Quiet before) (decided : Decided s r facts before d) :
    Guarded (Entitled s r facts) before (store s r d).run := by
  refine Attempt.guarded_bind (guarded_storeAnswer quiet) fun h x hr => ?_
  obtain ⟨log, citations⟩ := x
  have stored := AnswerStored.of_returns hr
  refine guarded_stamped fun id time => ?_
  refine Attempt.guarded_bind (guarded_persist (guarded_perform.2 ?_)) fun _ _ _ => guarded_done _
  rw [List.append_assoc]
  refine ⟨?_, rfl, decided.grounds stored id time⟩
  rw [storedResults_append, storedResults_append, quiet.silent.1, stored.silent.1,
    (quiet_stamp id time).silent.1]
  rfl

def isConcluding : Call → Bool
  | .requestReview _ _ => true
  | .markEvaluated _ => true
  | .count _ => true
  | _ => false

theorem only_notify {action : String} {send : Engine (Except Raised Unit)}
    (hs : send.Only isConcluding) : (notify action send).run.Only isConcluding := by
  refine hs.bind fun x => ?_
  cases x with
  | ok u => exact only_done _ _
  | error e =>
    dsimp only
    cases e.text with
    | ok text => exact only_done _ _
    | error f => exact only_done _ _

theorem only_counts {kind : Call → Bool} (hk : ∀ counter, kind (.count counter) = true)
    (counter : EscalationReason → Counter) (xs : List EscalationReason) :
    (xs.forM fun x => Engine.count (counter x)).Only kind := by
  induction xs with
  | nil => exact only_done _ _
  | cons x xs ih => exact (only_perform.2 (hk _)).bind fun _ => ih

theorem only_conclude (d : Decision) (x : Stored) :
    (conclude s r d x).run.Only isConcluding := by
  have lifted {p : Engine Unit} (hp : p.Only isConcluding) :
      (lift p).run.Only isConcluding := hp.bind fun _ => only_done _ _
  have announced : (announce r.caseId (d.combined s)).run.Only isConcluding := by
    rw [announce_eq]
    refine Attempt.only_bind (only_notify ?_) fun ws => Attempt.only_bind (lifted ?_) fun _ =>
      only_done _ _
    · split <;> exact only_perform.2 rfl
    · split
      · exact only_counts (fun _ => rfl) _ _
      · exact only_done _ _
  exact Attempt.only_bind announced fun ws =>
    Attempt.only_bind (lifted (only_perform.2 rfl)) fun _ => only_done _ _

theorem guarded_conclude (x : Stored) :
    Guarded (Entitled s r facts) before (conclude s r d x).run := by
  refine (only_conclude d x).guarded fun h c _ hc => ?_
  cases c <;> trivial

theorem guarded_overFacts : Guarded (Entitled s r facts) [] (overFacts s r facts) := by
  refine guarded_evaluationDate.bind fun h₁ asOf dated => ?_
  have quiet := quiet_evaluationDate dated
  refine Guarded.bind ?_ fun h x _ => ?_
  · rw [steps_eq]
    refine Attempt.guarded_bind (guarded_decision quiet) fun h₂ d hd => ?_
    have quiet := quiet.append (quiet_decision hd)
    refine Attempt.guarded_bind ?_ fun h₃ x _ => guarded_conclude x
    exact guarded_store quiet (.of_returns dated hd)
  · cases x with
    | ok y => exact guarded_done _
    | error e => exact (guarded_perform.2 trivial).bind fun _ _ _ => guarded_done _

end Parts

section Runs

variable {s : EngineSettings} {r : CheckRequest} {facts : Facts} {h : History Call.interface}

/-- Nothing is asked of the model after a write. -/
theorem asked_before {a b : History Call.interface} {x : Exchange Call.interface}
    {q : Engine (Except Raised CheckReport)}
    (hr : Reaches (overFacts s r facts) (a ++ x :: b) q) (hx : x.call.writeStage? ≠ none) :
    answers (a ++ x :: b) = answers a ∧ findings (a ++ x :: b) = findings a := by
  have late : ∀ y ∈ x :: b, answer? y = none ∧ finding? y = none := by
    intro y hy
    obtain ⟨c, d, hs⟩ := List.append_of_mem hy
    rw [hs, ← List.append_assoc] at hr
    have entitled := guarded_overFacts.allowed hr
    have written : ¬Quiet (a ++ c) ∨ y = x := by
      cases c with
      | nil => exact .inr (List.cons.inj hs).1.symm
      | cons z c =>
        obtain ⟨rfl, -⟩ := List.cons.inj hs
        exact .inl fun quiet => hx (quiet x (by simp))
    rcases written with hq | rfl
    · obtain ⟨call, reply⟩ := y
      cases call <;> first | exact ⟨rfl, rfl⟩ | exact absurd entitled hq
    · obtain ⟨call, reply⟩ := y
      cases call <;> first | exact ⟨rfl, rfl⟩ | exact absurd rfl hx
  rw [answers_append, findings_append]
  have unanswered : answers (x :: b) = [] := List.filterMap_eq_nil_iff.2 fun y hy => (late y hy).1
  have unfound : findings (x :: b) = [] := List.filterMap_eq_nil_iff.2 fun y hy => (late y hy).2
  rw [unanswered, unfound, List.append_nil, List.append_nil]
  exact ⟨rfl, rfl⟩

theorem Grounded.later {a b : History Call.interface} {x : EligibilityResult}
    (hg : Grounded s r facts a x) (same : answers (a ++ b) = answers a)
    (same' : findings (a ++ b) = findings a) : Grounded s r facts (a ++ b) x := by
  cases hg with
  | answered completed stored named cited =>
    refine .answered (completed.congr same same') ?_ named fun e he => ?_
    · rw [storedLogs_append]
      exact List.mem_append_left _ stored
    · rw [storedCitations_append]
      exact List.mem_append_left _ (cited e he)
  | unanswered lost unnamed read decided =>
    exact .unanswered (same.trans lost) unnamed (List.mem_append_left _ read) decided

/-- What a check has stored so far: at most one log and one result, and citations under the log. -/
structure Traced (s : EngineSettings) (r : CheckRequest) (facts : Facts)
    (h : History Call.interface) : Prop where
  logs : storedLogs h = [] ∨ ∃ l, storedLogs h = [l] ∧ l.id ∈ newIds h ∧ l.caseId = r.caseId
  citations : ∀ c ∈ storedCitations h, ∃ l ∈ storedLogs h, l.id = c.reasoningLogId
  results : storedResults h = [] ∨
    ∃ x, storedResults h = [x] ∧ x.caseId = r.caseId ∧ Grounded s r facts h x

theorem filterMap_once {α β : Type} {f : α → Option β} {l : List α}
    (first : ∀ a x b y, l = a ++ x :: b → f x = some y → a.filterMap f = []) :
    l.filterMap f = [] ∨ ∃ a x b y, l = a ++ x :: b ∧ f x = some y ∧ l.filterMap f = [y] := by
  cases hf : l.filterMap f with
  | nil => exact .inl rfl
  | cons y ys =>
    obtain ⟨a, x, b, rfl, none, hy, rest⟩ := List.filterMap_eq_cons_iff.1 hf
    refine .inr ⟨a, x, b, y, rfl, hy, ?_⟩
    cases ys with
    | nil => rfl
    | cons z zs =>
      obtain ⟨c, w, d, rfl, -, hz, -⟩ := List.filterMap_eq_cons_iff.1 rest
      have none := first (a ++ x :: c) w d z (by simp) hz
      simp [hy] at none

theorem storedLogs_of_quiet (quiet : Quiet h) : storedLogs h = [] := by
  refine List.eq_nil_iff_forall_not_mem.2 fun l hl => ?_
  cases quiet _ (mem_storedLogs.1 hl)

theorem Traced.of_reaches {q : Engine (Except Raised CheckReport)}
    (hr : Reaches (overFacts s r facts) h q) : Traced s r facts h := by
  have entitled {a b : History Call.interface} {x : Exchange Call.interface}
      (hs : h = a ++ x :: b) : Entitled s r facts a x.call :=
    guarded_overFacts.allowed (hs ▸ hr)
  constructor
  case logs =>
    have once := filterMap_once (f := storedLog?) (l := h) fun a x b l hs hl => by
      obtain rfl := eq_of_storedLog? hl
      exact storedLogs_of_quiet (entitled hs).1
    rcases once with none | ⟨a, x, b, l, hs, hl, one⟩
    · exact .inl none
    · obtain rfl := eq_of_storedLog? hl
      obtain ⟨-, named, same⟩ := entitled hs
      refine .inr ⟨l, one, ?_, same⟩
      rw [hs, newIds_append]
      exact List.mem_append_left _ named
  case citations =>
    intro c hc
    obtain ⟨cs, hx, hc⟩ := mem_storedCitations.1 hc
    obtain ⟨a, b, hs⟩ := List.append_of_mem hx
    obtain ⟨l, stored, named⟩ := entitled hs
    refine ⟨l, ?_, (named c hc).symm⟩
    rw [hs, storedLogs_append]
    exact List.mem_append_left _ stored
  case results =>
    have once := filterMap_once (f := storedResult?) (l := h) fun a x b y hs hy => by
      obtain rfl := eq_of_storedResult? hy
      exact (entitled hs).1
    rcases once with none | ⟨a, x, b, y, hs, hy, one⟩
    · exact .inl none
    · obtain rfl := eq_of_storedResult? hy
      obtain ⟨-, same, grounded⟩ := entitled hs
      obtain ⟨asked, found⟩ := asked_before (hs ▸ hr) (by simp [Call.writeStage?])
      refine .inr ⟨y, one, same, ?_⟩
      rw [hs]
      exact grounded.later asked found

namespace Traced

theorem reference (ht : Traced s r facts h) {x : EligibilityResult} (hx : x ∈ storedResults h)
    {id : String} (hid : x.reasoningLogId = some id) :
    ∃ l ∈ storedLogs h, l.id = id ∧ l.caseId = x.caseId := by
  rcases ht.results with none | ⟨y, one, same, grounded⟩
  · simp [none] at hx
  obtain rfl : x = y := by simpa [one] using hx
  cases grounded with
  | answered completed stored named cited =>
    cases named.symm.trans hid
    rcases ht.logs with none | ⟨l, one, -, same'⟩
    · simp [none] at stored
    · obtain rfl := by simpa [one] using stored
      exact ⟨_, stored, rfl, same'.trans same.symm⟩
  | unanswered lost unnamed read decided => cases unnamed.symm.trans hid

theorem logIds_sublist (ht : Traced s r facts h) :
    ((storedLogs h).map (·.id)).Sublist (newIds h) := by
  rcases ht.logs with none | ⟨l, one, named, -⟩
  · rw [none]
    exact List.nil_sublist _
  · rw [one]
    exact List.singleton_sublist.2 named

theorem references_sublist (ht : Traced s r facts h) :
    ((storedResults h).filterMap (·.reasoningLogId)).Sublist (newIds h) := by
  rcases ht.results with none | ⟨x, one, -⟩
  · rw [none]
    exact List.nil_sublist _
  cases hid : x.reasoningLogId with
  | none =>
    rw [one]
    simp [hid]
  | some id =>
    obtain ⟨l, hl, rfl, -⟩ := ht.reference (by simp [one]) hid
    rw [one, List.filterMap_cons_some hid]
    exact List.singleton_sublist.2 (ht.logIds_sublist.subset (List.mem_map_of_mem hl))

end Traced

theorem Traced.of_reaches_run {q : Engine (Except Raised CheckReport)}
    (hr : Reaches (run s r) h q) : ∃ facts, Traced s r facts h ∧
      (storedResults h ≠ [] → ⟨.facts r.caseId, .ok facts⟩ ∈ h) := by
  have empty {h : History Call.interface} (quiet : Quiet h) (none : storedCitations h = []) :
      ∃ facts, Traced s r facts h ∧
        (storedResults h ≠ [] → ⟨.facts r.caseId, .ok facts⟩ ∈ h) := by
    refine ⟨.empty, ⟨.inl (storedLogs_of_quiet quiet), ?_, .inl quiet.silent.1⟩, ?_⟩
    · simp [none]
    · exact fun stored => absurd quiet.silent.1 stored
  rcases reaches_call.1 hr with ⟨rfl, -⟩ | ⟨x, h', rfl, ht⟩
  · exact empty (by simp [Quiet]) rfl
  cases x with
  | error e =>
    obtain ⟨rfl, -⟩ := reaches_done.1 ht
    exact empty (by simp [Quiet, Call.writeStage?]) rfl
  | ok facts =>
    have traced := Traced.of_reaches (h := h') ht
    refine ⟨facts, ⟨traced.logs, traced.citations, ?_⟩, fun _ => List.mem_cons_self⟩
    rcases traced.results with none | ⟨x, one, same, grounded⟩
    · exact .inl none
    · refine .inr ⟨x, one, same, ?_⟩
      cases grounded with
      | answered completed stored named cited =>
        exact .answered (completed.congr rfl rfl) stored named cited
      | unanswered lost unnamed read decided =>
        exact .unanswered lost unnamed (List.mem_cons_of_mem _ read) decided

end Runs
end Check
end VisaEligibility
