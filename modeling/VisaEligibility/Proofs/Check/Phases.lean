import VisaEligibility.Proofs.Reasoning.Calls
import VisaEligibility.Check.Run
/-!
The three parts of a check: it decides, stores what it decided, and concludes by telling the case.
The histories of each part are listed in full, with the replies that lead to each end.
-/
set_option autoImplicit false

namespace VisaEligibility

open Program

instance (c : Call) : Nonempty (Call.interface.Reply c) := by
  cases c with
  | now => exact ⟨Instant.invalid⟩
  | newId => exact ⟨""⟩
  | pause _ => exact ⟨()⟩
  | count _ => exact ⟨()⟩
  | _ => exact ⟨.error (.value .null)⟩

namespace Check

structure Decision where
  rule : RuleEvaluation
  ai : AiPart

namespace Decision

def combined (d : Decision) (s : EngineSettings) : CombinedVerdict :=
  .combine d.rule.verdict d.ai.verdict s.thresholds

def result (d : Decision) (s : EngineSettings) (r : CheckRequest) (log : Option ReasoningLog)
    (id : String) (createdAt : Instant) : EligibilityResult :=
  makeResult r d.rule (d.combined s) (summary s d.rule (d.combined s) d.ai) d.ai log id createdAt

def states (d : Decision) (s : EngineSettings) : List CheckState :=
  [.pending, .ruleEvaluated, d.ai.state, .combined, .persisted,
    if (d.combined s).escalate then .escalated else .done]

end Decision

def decision (s : EngineSettings) (r : CheckRequest) (facts : Facts) (asOf : Instant) :
    Step Decision := do
  let version ← ExceptT.mk (Engine.ruleVersion r.visaTypeId asOf)
  let rule := version.evaluate facts s.thresholds
  let ai ← askModel s r facts rule
  return ⟨rule, ai⟩

structure Stored where
  log : Option ReasoningLog
  citations : List Citation
  result : EligibilityResult

def store (s : EngineSettings) (r : CheckRequest) (d : Decision) : Step Stored := do
  let (log, citations) ← storeAnswer r.caseId d.ai
  let id ← lift Engine.newId
  let createdAt ← lift Engine.now
  let result := d.result s r log id createdAt
  persist "eligibility result" (Engine.saveResult result)
  return ⟨log, citations, result⟩

def report (s : EngineSettings) (d : Decision) (x : Stored) (warnings : List String) :
    CheckReport :=
  { result := x.result, rule := d.rule, combined := d.combined s, aiStatus := d.ai.status
    aiFailure := d.ai.failure, log := x.log, citations := x.citations
    warnings := d.rule.warnings ++ d.ai.warnings ++ warnings, states := d.states s }

def conclude (s : EngineSettings) (r : CheckRequest) (d : Decision) (x : Stored) :
    Step CheckReport := do
  let warnings ← announce r.caseId (d.combined s)
  lift (Engine.count (.check x.result.conclusion.display "success"))
  return report s d x warnings

theorem ofExcept_ok_bind {α β : Type} (a : α) (f : α → Step β) : (ofExcept (.ok a) >>= f) = f a :=
  rfl

theorem advance_state (ai : AiPart) :
    Lifecycle.advance ⟨[.pending], .ruleEvaluated⟩ ai.state =
      .ok ⟨[.pending, .ruleEvaluated], ai.state⟩ := by
  unfold AiPart.state
  cases ai.status <;> rfl

theorem advance_combined (past : List CheckState) (ai : AiPart) :
    Lifecycle.advance ⟨past, ai.state⟩ .combined = .ok ⟨past ++ [ai.state], .combined⟩ := by
  unfold AiPart.state
  cases ai.status <;> rfl

theorem advance_last (past : List CheckState) (escalated : Bool) :
    Lifecycle.advance ⟨past, .persisted⟩ (if escalated then .escalated else .done) =
      .ok ⟨past ++ [.persisted], if escalated then .escalated else .done⟩ := by
  cases escalated <;> rfl

/-- No step of a check is barred by the order of its states. -/
theorem steps_eq (s : EngineSettings) (r : CheckRequest) (facts : Facts) (asOf : Instant) :
    steps s r facts asOf = (do
      let d ← decision s r facts asOf
      let x ← store s r d
      conclude s r d x) := by
  simp only [steps, decision, store, LawfulMonad.bind_assoc, LawfulMonad.pure_bind]
  refine congrArg _ (funext fun version => ?_)
  have hs : Lifecycle.start.advance .ruleEvaluated = .ok ⟨[.pending], .ruleEvaluated⟩ := rfl
  have hp (past : List CheckState) :
      Lifecycle.advance ⟨past, .combined⟩ .persisted = .ok ⟨past ++ [.combined], .persisted⟩ := rfl
  simp only [hs, hp, ofExcept_ok_bind, advance_state, advance_combined, advance_last, conclude]
  rfl

section Histories

variable {s : EngineSettings} {r : CheckRequest} {facts : Facts} {asOf : Instant}
  {d : Decision} {h : History Call.interface}

theorem eq_of_returns_evaluationDate {t : Instant} (hr : Returns (evaluationDate r) h t) :
    h = [] ∨ h = [⟨.now, t⟩] := by
  unfold evaluationDate at hr
  cases hd : r.evaluationDate with
  | none =>
    rw [hd] at hr
    exact .inr (returns_perform.1 hr)
  | some date =>
    rw [hd] at hr
    exact .inl (returns_done.1 hr).1

/-- The histories of a decision: there is no version to evaluate, or the model is asked in vain, or
the version and the answer of the model make a decision. -/
inductive Deciding (s : EngineSettings) (r : CheckRequest) (facts : Facts) (asOf : Instant) :
    History Call.interface → Except Raised Decision → Prop where
  | noVersion (e : Raised) : Deciding s r facts asOf [⟨.ruleVersion r.visaTypeId asOf, .error e⟩]
      (.error e)
  | aborted (v : RuleVersion) {h : History Call.interface} {e : Raised}
      (asked : Returns (askModel s r facts (v.evaluate facts s.thresholds)).run h (.error e)) :
      Deciding s r facts asOf (⟨.ruleVersion r.visaTypeId asOf, .ok v⟩ :: h) (.error e)
  | decided (v : RuleVersion) {h : History Call.interface} {ai : AiPart}
      (asked : Returns (askModel s r facts (v.evaluate facts s.thresholds)).run h (.ok ai)) :
      Deciding s r facts asOf (⟨.ruleVersion r.visaTypeId asOf, .ok v⟩ :: h)
        (.ok ⟨v.evaluate facts s.thresholds, ai⟩)

theorem Deciding.of_returns {x : Except Raised Decision}
    (hr : Returns (decision s r facts asOf).run h x) : Deciding s r facts asOf h x := by
  unfold decision at hr
  rcases Attempt.returns_bind.1 hr with ⟨e, rfl, hv⟩ | ⟨h₁, v, h₂, rfl, hv, ht⟩
  · obtain rfl := returns_perform.1 hv
    exact .noVersion e
  · obtain rfl := returns_perform.1 hv
    rcases Attempt.returns_bind.1 ht with ⟨e, rfl, ha⟩ | ⟨h₁, ai, h₃, rfl, ha, hd⟩
    · exact .aborted v ha
    · obtain ⟨rfl, rfl⟩ := Attempt.returns_pure.1 hd
      rw [List.append_nil]
      exact .decided v ha

theorem returns_persist {α : Type} {entity : String} {write : Engine (Except Raised Unit)}
    {f : Unit → Step α} {x : Except Raised α}
    (hr : Returns (persist entity write >>= f).run h x) :
    (∃ e, x = .error (.failure (.persistence entity e)) ∧ Returns write h (.error e)) ∨
      ∃ h₁ h₂, h = h₁ ++ h₂ ∧ Returns write h₁ (.ok ()) ∧ Returns (f ()).run h₂ x := by
  have split : ∀ {h : History Call.interface} {y : Except Raised Unit},
      Returns (persist entity write).run h y →
        (∃ e, y = .error (.failure (.persistence entity e)) ∧ Returns write h (.error e)) ∨
          y = .ok () ∧ Returns write h (.ok ()) := by
    intro h y hy
    obtain ⟨h₁, w, h₂, rfl, hw, hd⟩ := returns_bind.1 hy
    cases w with
    | error e =>
      obtain ⟨rfl, rfl⟩ := returns_done.1 hd
      exact .inl ⟨e, rfl, by simpa using hw⟩
    | ok u =>
      obtain ⟨rfl, rfl⟩ := returns_done.1 hd
      exact .inr ⟨rfl, by simpa using hw⟩
  rcases Attempt.returns_bind.1 hr with ⟨e, rfl, hp⟩ | ⟨h₁, u, h₂, rfl, hp, hf⟩
  · rcases split hp with ⟨e', he, hw⟩ | ⟨he, -⟩
    · cases he
      exact .inl ⟨e', rfl, hw⟩
    · cases he
  · rcases split hp with ⟨e, he, -⟩ | ⟨-, hw⟩
    · cases he
    · exact .inr ⟨h₁, h₂, rfl, hw, hf⟩

def logOf (caseId : String) (c : Assessment) (id : String) (createdAt : Instant) : ReasoningLog :=
  { id, caseId, prompt := c.prompt.text, responseText := c.answer.text,
    modelName := c.answer.model, usage := c.answer.usage, createdAt }

def stamp (id : String) (createdAt : Instant) : History Call.interface :=
  [⟨.newId, id⟩, ⟨.now, createdAt⟩]

def saving (id : String) (time : Instant) (x : EligibilityResult) (w : Except Raised Unit) :
    History Call.interface :=
  stamp id time ++ [⟨.saveResult x, w⟩]

/-- The histories of storing what the model answered. -/
inductive AnswerStored (caseId : String) (p : AiPart) :
    History Call.interface → Except Raised (Option ReasoningLog × List Citation) → Prop where
  | unanswered (hp : p.completed = none) : AnswerStored caseId p [] (.ok (none, []))
  | logFailed {c : Assessment} (hp : p.completed = some c) (id : String) (time : Instant)
      (e : Raised) :
      AnswerStored caseId p (stamp id time ++ [⟨.saveLog (logOf caseId c id time), .error e⟩])
        (.error (.failure (.persistence "reasoning log" e)))
  | uncited {c : Assessment} (hp : p.completed = some c) (id : String) (time : Instant)
      (hc : c.excerpts = []) :
      AnswerStored caseId p (stamp id time ++ [⟨.saveLog (logOf caseId c id time), .ok ()⟩])
        (.ok (some (logOf caseId c id time), []))
  | citationsFailed {c : Assessment} (hp : p.completed = some c) (id : String) (time : Instant)
      (hc : c.excerpts ≠ []) (e : Raised) :
      AnswerStored caseId p
        (stamp id time ++ [⟨.saveLog (logOf caseId c id time), .ok ()⟩,
          ⟨.saveCitations (c.excerpts.map (Citation.mk id)), .error e⟩])
        (.error (.failure (.persistence "citations" e)))
  | cited {c : Assessment} (hp : p.completed = some c) (id : String) (time : Instant)
      (hc : c.excerpts ≠ []) :
      AnswerStored caseId p
        (stamp id time ++ [⟨.saveLog (logOf caseId c id time), .ok ()⟩,
          ⟨.saveCitations (c.excerpts.map (Citation.mk id)), .ok ()⟩])
        (.ok (some (logOf caseId c id time), c.excerpts.map (Citation.mk id)))

theorem returns_stamped {α : Type} {f : String → Instant → Step α} {x : Except Raised α}
    (hr : Returns (lift Engine.newId >>= fun id => lift Engine.now >>= f id).run h x) :
    ∃ id time h', h = stamp id time ++ h' ∧ Returns (f id time).run h' x := by
  obtain ⟨h₁, id, h₂, rfl, hi, ht⟩ := Attempt.returns_lift_bind.1 hr
  obtain rfl := returns_perform.1 hi
  obtain ⟨h₃, time, h₄, rfl, hn, hf⟩ := Attempt.returns_lift_bind.1 ht
  obtain rfl := returns_perform.1 hn
  exact ⟨id, time, h₄, rfl, hf⟩

theorem AnswerStored.of_returns {caseId : String} {p : AiPart}
    {x : Except Raised (Option ReasoningLog × List Citation)}
    (hr : Returns (storeAnswer caseId p).run h x) : AnswerStored caseId p h x := by
  unfold storeAnswer at hr
  cases hp : p.completed with
  | none =>
    rw [hp] at hr
    obtain ⟨rfl, rfl⟩ := Attempt.returns_pure.1 hr
    exact .unanswered hp
  | some c =>
    rw [hp] at hr
    simp only [storeReasoning, LawfulMonad.bind_assoc] at hr
    obtain ⟨id, time, h', rfl, hl⟩ := returns_stamped hr
    rcases returns_persist hl with ⟨e, rfl, hw⟩ | ⟨h₁, h₂, rfl, hw, hc⟩
    · obtain rfl := returns_perform.1 hw
      exact .logFailed hp id time e
    · obtain rfl := returns_perform.1 hw
      by_cases hx : c.excerpts = []
      · simp only [hx, List.map_nil, List.isEmpty_nil, Bool.not_true, Bool.false_eq_true,
          ↓reduceIte, LawfulMonad.pure_bind] at hc
        obtain ⟨rfl, rfl⟩ := Attempt.returns_pure.1 hc
        exact .uncited hp id time hx
      · have hne : (c.excerpts.map (Citation.mk id)).isEmpty = false := by simpa using hx
        simp only [hne, Bool.not_false, ↓reduceIte, LawfulMonad.bind_assoc,
          LawfulMonad.pure_bind] at hc
        rcases returns_persist hc with ⟨e, rfl, hs⟩ | ⟨h₃, h₄, rfl, hs, hd⟩
        · obtain rfl := returns_perform.1 hs
          exact .citationsFailed hp id time hx e
        · obtain rfl := returns_perform.1 hs
          obtain ⟨rfl, rfl⟩ := Attempt.returns_pure.1 hd
          exact .cited hp id time hx

inductive Storing (s : EngineSettings) (r : CheckRequest) (d : Decision) :
    History Call.interface → Except Raised Stored → Prop where
  | answerLost {h : History Call.interface} {e : Raised}
      (answer : AnswerStored r.caseId d.ai h (.error e)) : Storing s r d h (.error e)
  | resultFailed {h : History Call.interface} {log : Option ReasoningLog}
      {citations : List Citation} (answer : AnswerStored r.caseId d.ai h (.ok (log, citations)))
      (id : String) (time : Instant) (e : Raised) :
      Storing s r d (h ++ saving id time (d.result s r log id time) (.error e))
        (.error (.failure (.persistence "eligibility result" e)))
  | stored {h : History Call.interface} {log : Option ReasoningLog}
      {citations : List Citation} (answer : AnswerStored r.caseId d.ai h (.ok (log, citations)))
      (id : String) (time : Instant) :
      Storing s r d (h ++ saving id time (d.result s r log id time) (.ok ()))
        (.ok ⟨log, citations, d.result s r log id time⟩)

theorem Storing.of_returns {x : Except Raised Stored} (hr : Returns (store s r d).run h x) :
    Storing s r d h x := by
  unfold store at hr
  rcases Attempt.returns_bind.1 hr with ⟨e, rfl, ha⟩ | ⟨h₁, p, h₂, rfl, ha, ht⟩
  · exact .answerLost (.of_returns ha)
  · obtain ⟨log, citations⟩ := p
    obtain ⟨id, time, h', rfl, hl⟩ := returns_stamped ht
    rcases returns_persist hl with ⟨e, rfl, hw⟩ | ⟨h₃, h₄, rfl, hw, hd⟩
    · obtain rfl := returns_perform.1 hw
      exact .resultFailed (.of_returns ha) id time e
    · obtain rfl := returns_perform.1 hw
      obtain ⟨rfl, rfl⟩ := Attempt.returns_pure.1 hd
      rw [List.append_nil]
      exact .stored (.of_returns ha) id time

def notice (caseId : String) (c : CombinedVerdict) (w : Except Raised Unit) :
    Exchange Call.interface :=
  if c.escalate then ⟨.requestReview caseId (EscalationReason.describe c.reasons), w⟩
  else ⟨.markEvaluated caseId, w⟩

/-- Whether the reply to a notification can be reported: it was received, or its failure has a
text. -/
def isReportable : Except Raised Unit → Bool
  | .ok () => true
  | .error e => e.hasText

def replyWarnings (action : String) : Except Raised Unit → List String
  | .ok () => []
  | .error e => [action ++ " failed: " ++ e.message]

def noticeName (c : CombinedVerdict) : String :=
  if c.escalate then "human review request" else "case status update"

def noticeWarnings (c : CombinedVerdict) : Except Raised Unit → List String :=
  replyWarnings (noticeName c)

def tally (c : CombinedVerdict) : History Call.interface :=
  if c.escalate then c.reasons.map fun x => ⟨.count (.escalation x.name), ()⟩ else []

theorem returns_notify {action : String} {send : Engine (Except Raised Unit)}
    {x : Except Raised (List String)} :
    Returns (notify action send).run h x ↔
      (∃ w, isReportable w = true ∧ Returns send h w ∧ x = .ok (replyWarnings action w)) ∨
        ∃ e, e.hasText = false ∧ Returns send h (.error e) ∧ x = .error (.failure .noText) := by
  unfold notify
  refine returns_bind.trans ?_
  constructor
  · rintro ⟨h₁, w, h₂, rfl, hw, hd⟩
    cases w with
    | ok u =>
      obtain ⟨rfl, rfl⟩ := returns_done.1 hd
      exact .inl ⟨.ok u, rfl, by simpa using hw, rfl⟩
    | error e =>
      dsimp only at hd
      cases he : e.hasText with
      | true =>
        rw [Raised.text_of_hasText he] at hd
        obtain ⟨rfl, rfl⟩ := returns_done.1 hd
        exact .inl ⟨.error e, he, by simpa using hw, rfl⟩
      | false =>
        rw [Raised.text_of_not_hasText he] at hd
        obtain ⟨rfl, rfl⟩ := returns_done.1 hd
        exact .inr ⟨e, he, by simpa using hw, rfl⟩
  · rintro (⟨w, reportable, hw, rfl⟩ | ⟨e, he, hw, rfl⟩)
    · refine ⟨h, w, [], by simp, hw, ?_⟩
      cases w with
      | ok u => exact returns_done.2 ⟨rfl, rfl⟩
      | error e =>
        dsimp only
        rw [Raised.text_of_hasText reportable]
        exact returns_done.2 ⟨rfl, rfl⟩
    · refine ⟨h, .error e, [], by simp, hw, ?_⟩
      dsimp only
      rw [Raised.text_of_not_hasText he]
      exact returns_done.2 ⟨rfl, rfl⟩

theorem returns_counts (counter : EscalationReason → Counter) (xs : List EscalationReason) :
    Returns (xs.forM fun x => Engine.count (counter x)) h () ↔
      h = xs.map fun x => ⟨.count (counter x), ()⟩ := by
  induction xs generalizing h with
  | nil => exact returns_done.trans (and_iff_left rfl)
  | cons x xs ih =>
    refine returns_bind.trans ?_
    constructor
    · rintro ⟨h₁, u, h₂, rfl, hx, hr⟩
      obtain rfl := returns_perform.1 hx
      obtain rfl := ih.1 hr
      rfl
    · rintro rfl
      exact ⟨[_], (), _, rfl, returns_perform.2 rfl, ih.2 rfl⟩

/-- The histories of telling the case: the reply is reported, or ends the check when it cannot be. -/
inductive Announcing (caseId : String) (c : CombinedVerdict) :
    History Call.interface → Except Raised (List String) → Prop where
  | told (w : Except Raised Unit) (hw : isReportable w = true) :
      Announcing caseId c (notice caseId c w :: tally c) (.ok (noticeWarnings c w))
  | untold (e : Raised) (he : e.hasText = false) :
      Announcing caseId c [notice caseId c (.error e)] (.error (.failure .noText))

theorem returns_send {caseId : String} {c : CombinedVerdict} {w : Except Raised Unit} :
    Returns (if c.escalate then Engine.requestReview caseId (EscalationReason.describe c.reasons)
      else Engine.markEvaluated caseId) h w ↔ h = [notice caseId c w] := by
  unfold notice
  cases c.escalate <;> exact returns_perform

theorem returns_tally {c : CombinedVerdict} {u : Unit} :
    Returns (if c.escalate then c.reasons.forM fun x => Engine.count (.escalation x.name)
      else return ()) h u ↔ h = tally c := by
  unfold tally
  cases c.escalate with
  | true => exact returns_counts _ _
  | false => exact returns_done.trans (and_iff_left rfl)

theorem announce_eq (caseId : String) (c : CombinedVerdict) :
    announce caseId c = (do
      let warnings ← notify (noticeName c)
        (if c.escalate then Engine.requestReview caseId (EscalationReason.describe c.reasons)
          else Engine.markEvaluated caseId)
      lift (if c.escalate then c.reasons.forM fun x => Engine.count (.escalation x.name)
        else return ())
      return warnings) := by
  unfold announce noticeName
  cases c.escalate with
  | true => rfl
  | false => exact (bind_pure _).symm

theorem returns_announce {caseId : String} {c : CombinedVerdict}
    {x : Except Raised (List String)} :
    Returns (announce caseId c).run h x ↔ Announcing caseId c h x := by
  rw [announce_eq, Attempt.returns_bind]
  constructor
  · rintro (⟨e, rfl, hn⟩ | ⟨h₁, ws, h₂, rfl, hn, hr⟩)
    · rcases returns_notify.1 hn with ⟨w, -, -, he⟩ | ⟨e', he, hw, hx⟩
      · cases he
      · cases hx
        obtain rfl := returns_send.1 hw
        exact .untold e' he
    · rcases returns_notify.1 hn with ⟨w, reportable, hw, hx⟩ | ⟨e, -, -, he⟩
      · cases hx
        obtain rfl := returns_send.1 hw
        obtain ⟨h₃, u, h₄, rfl, ht, hd⟩ := Attempt.returns_lift_bind.1 hr
        obtain rfl := returns_tally.1 ht
        obtain ⟨rfl, rfl⟩ := Attempt.returns_pure.1 hd
        rw [List.append_nil]
        exact .told w reportable
      · cases he
  · intro ha
    cases ha with
    | told w hw =>
      refine .inr ⟨[_], _, _, rfl, returns_notify.2 (.inl ⟨w, hw, returns_send.2 rfl, rfl⟩), ?_⟩
      exact Attempt.returns_lift_bind.2
        ⟨_, (), [], (List.append_nil _).symm, returns_tally.2 rfl, Attempt.returns_pure.2 ⟨rfl, rfl⟩⟩
    | untold e he =>
      exact .inl ⟨_, rfl, returns_notify.2 (.inr ⟨e, he, returns_send.2 rfl, rfl⟩)⟩

inductive Concluding (s : EngineSettings) (r : CheckRequest) (d : Decision) (x : Stored) :
    History Call.interface → Except Raised CheckReport → Prop where
  | told (w : Except Raised Unit) (hw : isReportable w = true) :
      Concluding s r d x
        (notice r.caseId (d.combined s) w :: (tally (d.combined s) ++
          [⟨.count (.check x.result.conclusion.display "success"), ()⟩]))
        (.ok (report s d x (noticeWarnings (d.combined s) w)))
  | untold (e : Raised) (he : e.hasText = false) :
      Concluding s r d x [notice r.caseId (d.combined s) (.error e)] (.error (.failure .noText))

theorem returns_conclude {x : Stored} {y : Except Raised CheckReport} :
    Returns (conclude s r d x).run h y ↔ Concluding s r d x h y := by
  unfold conclude
  rw [Attempt.returns_bind]
  constructor
  · rintro (⟨e, rfl, ha⟩ | ⟨h₁, ws, h₂, rfl, ha, hr⟩)
    · cases returns_announce.1 ha with
      | untold e he => exact .untold e he
    · obtain ⟨h₃, u, h₄, rfl, hc, hd⟩ := Attempt.returns_lift_bind.1 hr
      obtain rfl := returns_perform.1 hc
      obtain ⟨rfl, rfl⟩ := Attempt.returns_pure.1 hd
      cases returns_announce.1 ha with
      | told w hw => exact .told w hw
  · intro hc
    cases hc with
    | told w hw =>
      refine .inr ⟨_, _, _, rfl, returns_announce.2 (.told w hw), ?_⟩
      exact Attempt.returns_lift_bind.2
        ⟨[_], (), [], rfl, returns_perform.2 rfl, Attempt.returns_pure.2 ⟨rfl, rfl⟩⟩
    | untold e he => exact .inl ⟨_, rfl, returns_announce.2 (.untold e he)⟩

end Histories
end Check
end VisaEligibility
