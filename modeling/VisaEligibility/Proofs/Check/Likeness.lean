import VisaEligibility.Proofs.Check.Grounding
import VisaEligibility.Proofs.Program.Coupling
/-!
Checks that are alike. Two runs of one check are alike when the exchanges are, up to generated ids
and times and up to errors that a relation does not tell apart; then their outcomes are alike in the
same way.
-/
set_option autoImplicit false

namespace VisaEligibility

open Program

/-! ### Records without ids and times -/

def ReasoningLog.unstamped (l : ReasoningLog) : ReasoningLog :=
  { l with id := "", createdAt := .invalid }

def Citation.unstamped (c : Citation) : Citation := { c with reasoningLogId := "" }

def EligibilityResult.unstamped (x : EligibilityResult) : EligibilityResult :=
  { x with id := "", reasoningLogId := x.reasoningLogId.map fun _ => "", createdAt := .invalid }

def CheckReport.unstamped (y : CheckReport) : CheckReport :=
  { y with result := y.result.unstamped, log := y.log.map (·.unstamped),
           citations := y.citations.map (·.unstamped) }

/-- Calls that differ at most in ids and times. -/
inductive Call.Like : Call → Call → Prop where
  | same (c : Call) : Like c c
  | saveLog {l l' : ReasoningLog} (same : l.unstamped = l'.unstamped) :
      Like (.saveLog l) (.saveLog l')
  | saveCitations {cs cs' : List Citation}
      (same : cs.map (·.unstamped) = cs'.map (·.unstamped)) :
      Like (.saveCitations cs) (.saveCitations cs')
  | saveResult {x x' : EligibilityResult} (same : x.unstamped = x'.unstamped) :
      Like (.saveResult x) (.saveResult x')

variable {E F : Raised → Raised → Prop}

/-- Exchanges that differ at most in ids and times and in errors that `E` does not tell apart. What
is asked of remote services gets the same reply. -/
inductive Alike (E : Raised → Raised → Prop) :
    Exchange Call.interface → Exchange Call.interface → Prop where
  | now (t t' : Instant) : Alike E ⟨.now, t⟩ ⟨.now, t'⟩
  | newId (id id' : String) : Alike E ⟨.newId, id⟩ ⟨.newId, id'⟩
  | remote (x : Exchange Call.interface) (hx : x.call.isRemote = true) : Alike E x x
  | facts {caseId : String} {x y : Except Raised Facts} (replies : Matching E Eq x y) :
      Alike E ⟨.facts caseId, x⟩ ⟨.facts caseId, y⟩
  | ruleVersion {visaTypeId : String} {asOf : Instant} {x y : Except Raised RuleVersion}
      (replies : Matching E Eq x y) :
      Alike E ⟨.ruleVersion visaTypeId asOf, x⟩ ⟨.ruleVersion visaTypeId asOf, y⟩
  | saveLog {l l' : ReasoningLog} {w w' : Except Raised Unit} (same : l.unstamped = l'.unstamped)
      (replies : Matching E Eq w w') : Alike E ⟨.saveLog l, w⟩ ⟨.saveLog l', w'⟩
  | saveCitations {cs cs' : List Citation} {w w' : Except Raised Unit}
      (same : cs.map (·.unstamped) = cs'.map (·.unstamped)) (replies : Matching E Eq w w') :
      Alike E ⟨.saveCitations cs, w⟩ ⟨.saveCitations cs', w'⟩
  | saveResult {x x' : EligibilityResult} {w w' : Except Raised Unit}
      (same : x.unstamped = x'.unstamped) (replies : Matching E Eq w w') :
      Alike E ⟨.saveResult x, w⟩ ⟨.saveResult x', w'⟩
  | requestReview {caseId reason : String} {w w' : Except Raised Unit}
      (replies : Matching E Eq w w') :
      Alike E ⟨.requestReview caseId reason, w⟩ ⟨.requestReview caseId reason, w'⟩
  | markEvaluated {caseId : String} {w w' : Except Raised Unit} (replies : Matching E Eq w w') :
      Alike E ⟨.markEvaluated caseId, w⟩ ⟨.markEvaluated caseId, w'⟩

/-- Two ways to answer calls that `E` does not tell apart, nor ids and times. -/
structure AnsweredAlike (E : Raised → Raised → Prop) (f g : (c : Call) → Call.Reply c) : Prop where
  remote : ∀ c, c.isRemote = true → f c = g c
  facts : ∀ caseId, Matching E Eq (f (.facts caseId)) (g (.facts caseId))
  ruleVersion : ∀ visaTypeId asOf,
    Matching E Eq (f (.ruleVersion visaTypeId asOf)) (g (.ruleVersion visaTypeId asOf))
  saveLog : ∀ l l', l.unstamped = l'.unstamped →
    Matching E Eq (f (.saveLog l)) (g (.saveLog l'))
  saveCitations : ∀ cs cs', cs.map Citation.unstamped = cs'.map Citation.unstamped →
    Matching E Eq (f (.saveCitations cs)) (g (.saveCitations cs'))
  saveResult : ∀ x x', x.unstamped = x'.unstamped →
    Matching E Eq (f (.saveResult x)) (g (.saveResult x'))
  requestReview : ∀ caseId reason,
    Matching E Eq (f (.requestReview caseId reason)) (g (.requestReview caseId reason))
  markEvaluated : ∀ caseId, Matching E Eq (f (.markEvaluated caseId)) (g (.markEvaluated caseId))

theorem AnsweredAlike.alike {f g : (c : Call) → Call.Reply c} (h : AnsweredAlike E f g) {c d : Call}
    (like : c.Like d) : Alike E ⟨c, f c⟩ ⟨d, g d⟩ := by
  cases like with
  | same c =>
    cases hc : c.isRemote with
    | true =>
      rw [← h.remote c hc]
      exact .remote _ hc
    | false =>
      cases c with
      | now => exact .now _ _
      | newId => exact .newId _ _
      | facts caseId => exact .facts (h.facts _)
      | ruleVersion visaTypeId asOf => exact .ruleVersion (h.ruleVersion _ _)
      | saveLog l => exact .saveLog rfl (h.saveLog l l rfl)
      | saveCitations cs => exact .saveCitations rfl (h.saveCitations cs cs rfl)
      | saveResult x => exact .saveResult rfl (h.saveResult x x rfl)
      | requestReview caseId reason => exact .requestReview (h.requestReview _ _)
      | markEvaluated caseId => exact .markEvaluated (h.markEvaluated _)
      | _ => cases hc
  | saveLog same => exact .saveLog same (h.saveLog _ _ same)
  | saveCitations same => exact .saveCitations same (h.saveCitations _ _ same)
  | saveResult same => exact .saveResult same (h.saveResult _ _ same)

/-- Errors of sources and stores that `E` does not tell apart end checks with errors that `F` does
not tell apart. -/
structure Tolerance (E F : Raised → Raised → Prop) : Prop where
  hasText : ∀ {e e' : Raised}, E e e' → e.hasText = e'.hasText
  same : ∀ e : Raised, F e e
  reported : ∀ {e e' : Raised}, E e e' → F e.reported e'.reported
  persistence : ∀ (entity : String) {e e' : Raised}, E e e' →
    F (.failure (.persistence entity e)) (.failure (.persistence entity e'))

/-- Reports that differ at most in ids and times and in the warning about a notification. -/
structure CheckReport.Alike (E : Raised → Raised → Prop) (y y' : CheckReport) : Prop where
  core : { y.unstamped with warnings := [] } = { y'.unstamped with warnings := [] }
  warnings : ∃ base w w', Matching E Eq w w' ∧
    y.warnings = base ++ Check.noticeWarnings y.combined w ∧
    y'.warnings = base ++ Check.noticeWarnings y'.combined w'

theorem CheckReport.Alike.combined_eq {y y' : CheckReport} (h : CheckReport.Alike E y y') :
    y.combined = y'.combined := by
  have same := congrArg (fun z : CheckReport => z.combined) h.core
  exact same

namespace Check

abbrev InStep {α β : Type} (E : Raised → Raised → Prop) (R : α → β → Prop) :
    Engine α → Engine β → Prop :=
  Coupled Call.Like (VisaEligibility.Alike E) R

def Unreported (F : Raised → Raised → Prop) (e e' : Raised) : Prop := F e.reported e'.reported

abbrev StepsLike {α β : Type} (E F : Raised → Raised → Prop) (R : α → β → Prop) (p : Step α)
    (q : Step β) : Prop :=
  InStep E (Matching (Unreported F) R) p.run q.run

section Parts

variable {s : EngineSettings} {r : CheckRequest} {facts : Facts} {asOf : Instant} {d : Decision}

theorem inStep_perform (c d : Call) {R : Call.Reply c → Call.Reply d → Prop} (like : c.Like d)
    (hr : ∀ a b, VisaEligibility.Alike E ⟨c, a⟩ ⟨d, b⟩ → R a b) :
    InStep E R (perform (I := Call.interface) c) (perform (I := Call.interface) d) :=
  .perform like hr

theorem inStep_now : InStep E (fun _ _ => True) Engine.now Engine.now :=
  inStep_perform .now .now (.same _) fun _ _ _ => trivial

theorem inStep_newId : InStep E (fun _ _ => True) Engine.newId Engine.newId :=
  inStep_perform .newId .newId (.same _) fun _ _ _ => trivial

theorem inStep_facts (caseId : String) :
    InStep E (Matching E Eq) (Engine.facts caseId) (Engine.facts caseId) :=
  inStep_perform (.facts caseId) (.facts caseId) (.same _) fun a b hs => by
    cases hs with
    | remote _ hx => cases hx
    | facts replies => exact replies

theorem inStep_ruleVersion (visaTypeId : String) (asOf : Instant) :
    InStep E (Matching E Eq) (Engine.ruleVersion visaTypeId asOf)
      (Engine.ruleVersion visaTypeId asOf) :=
  inStep_perform (.ruleVersion visaTypeId asOf) (.ruleVersion visaTypeId asOf) (.same _) fun a b hs => by
    cases hs with
    | remote _ hx => cases hx
    | ruleVersion replies => exact replies

theorem inStep_saveLog {l l' : ReasoningLog} (same : l.unstamped = l'.unstamped) :
    InStep E (Matching E Eq) (Engine.saveLog l) (Engine.saveLog l') :=
  inStep_perform (.saveLog l) (.saveLog l') (.saveLog same) fun a b hs => by
    cases hs with
    | remote _ hx => cases hx
    | saveLog _ replies => exact replies

theorem inStep_saveCitations {cs cs' : List Citation}
    (same : cs.map (·.unstamped) = cs'.map (·.unstamped)) :
    InStep E (Matching E Eq) (Engine.saveCitations cs) (Engine.saveCitations cs') :=
  inStep_perform (.saveCitations cs) (.saveCitations cs') (.saveCitations same) fun a b hs => by
    cases hs with
    | remote _ hx => cases hx
    | saveCitations _ replies => exact replies

theorem inStep_saveResult {x x' : EligibilityResult} (same : x.unstamped = x'.unstamped) :
    InStep E (Matching E Eq) (Engine.saveResult x) (Engine.saveResult x') :=
  inStep_perform (.saveResult x) (.saveResult x') (.saveResult same) fun a b hs => by
    cases hs with
    | remote _ hx => cases hx
    | saveResult _ replies => exact replies

theorem inStep_requestReview (caseId reason : String) :
    InStep E (Matching E Eq) (Engine.requestReview caseId reason)
      (Engine.requestReview caseId reason) :=
  inStep_perform (.requestReview caseId reason) (.requestReview caseId reason) (.same _) fun a b hs => by
    cases hs with
    | remote _ hx => cases hx
    | requestReview replies => exact replies

theorem inStep_markEvaluated (caseId : String) :
    InStep E (Matching E Eq) (Engine.markEvaluated caseId) (Engine.markEvaluated caseId) :=
  inStep_perform (.markEvaluated caseId) (.markEvaluated caseId) (.same _) fun a b hs => by
    cases hs with
    | remote _ hx => cases hx
    | markEvaluated replies => exact replies

theorem inStep_remote {α : Type} {p : Engine α} (hp : p.Only Call.isRemote) : InStep E Eq p p := by
  refine hp.coupled (fun c _ => .same c) fun c a b hc hs => ?_
  cases hs <;> first | rfl | cases hc

theorem matching_of_eq (ht : Tolerance E F) {α : Type} {x y : Except Raised α} (h : x = y) :
    Matching (Unreported F) Eq x y := by
  cases h
  cases x with
  | ok a => exact .ok rfl
  | error e => exact .error (ht.same _)

theorem stepsLike_decision (ht : Tolerance E F) :
    StepsLike E F Eq (decision s r facts asOf) (decision s r facts asOf) := by
  refine Attempt.coupled_bind (R := Eq) ?_ fun v v' hv => ?_
  · refine (inStep_ruleVersion _ _).mono fun x y replies => ?_
    cases replies with
    | ok same => exact .ok same
    | error related => exact .error (ht.reported related)
  · cases hv
    refine Attempt.coupled_bind (R := Eq) ?_ fun ai ai' ha => ?_
    · exact (inStep_remote (only_askModel _ _ _ _)).mono fun x y => matching_of_eq ht
    · cases ha
      exact Attempt.coupled_pure rfl

theorem stepsLike_persist (ht : Tolerance E F) {entity : String}
    {write write' : Engine (Except Raised Unit)}
    (hw : InStep E (Matching E Eq) write write') :
    StepsLike E F Eq (persist entity write) (persist entity write') := by
  refine hw.bind fun w w' replies => ?_
  cases replies with
  | ok _ => exact .done (.ok rfl)
  | error related => exact .done (.error (ht.persistence entity related))

theorem stepsLike_stamped {α β : Type} {R : α → β → Prop} {f : String → Instant → Step α}
    {g : String → Instant → Step β}
    (hf : ∀ id time id' time', StepsLike E F R (f id time) (g id' time')) :
    StepsLike E F R (lift Engine.newId >>= fun id => lift Engine.now >>= f id)
      (lift Engine.newId >>= fun id => lift Engine.now >>= g id) := by
  refine Attempt.coupled_bind (Attempt.coupled_lift inStep_newId) fun id id' _ => ?_
  refine Attempt.coupled_bind (Attempt.coupled_lift inStep_now) fun time time' _ => ?_
  exact hf id time id' time'

def AnswersLike (x y : Option ReasoningLog × List Citation) : Prop :=
  x.1.map (·.unstamped) = y.1.map (·.unstamped) ∧
    x.2.map (·.unstamped) = y.2.map (·.unstamped)

theorem stepsLike_storeAnswer (ht : Tolerance E F) (caseId : String) (p : AiPart) :
    StepsLike E F AnswersLike (storeAnswer caseId p) (storeAnswer caseId p) := by
  unfold storeAnswer
  cases p.completed with
  | none => exact Attempt.coupled_pure ⟨rfl, rfl⟩
  | some c =>
    simp only [storeReasoning, LawfulMonad.bind_assoc]
    refine stepsLike_stamped fun id time id' time' => ?_
    have cited : (c.excerpts.map (Citation.mk id)).map (·.unstamped) =
        (c.excerpts.map (Citation.mk id')).map (·.unstamped) := by
      simp [Citation.unstamped]
    refine Attempt.coupled_bind (stepsLike_persist ht (inStep_saveLog rfl)) fun _ _ _ => ?_
    have empty : (c.excerpts.map (Citation.mk id)).isEmpty =
        (c.excerpts.map (Citation.mk id')).isEmpty := by simp
    rw [empty]
    split
    · simp only [LawfulMonad.bind_assoc, LawfulMonad.pure_bind]
      refine Attempt.coupled_bind (stepsLike_persist ht (inStep_saveCitations cited)) fun _ _ _ => ?_
      exact Attempt.coupled_pure ⟨rfl, cited⟩
    · exact Attempt.coupled_pure ⟨rfl, cited⟩

structure Stored.Like (x y : Stored) : Prop where
  answers : AnswersLike (x.log, x.citations) (y.log, y.citations)
  result : x.result.unstamped = y.result.unstamped

theorem unstamped_result {log log' : Option ReasoningLog} (same : log.isSome = log'.isSome)
    (id id' : String) (time time' : Instant) :
    (d.result s r log id time).unstamped = (d.result s r log' id' time').unstamped := by
  cases log <;> cases log' <;> first | rfl | cases same

theorem stepsLike_store (ht : Tolerance E F) :
    StepsLike E F Stored.Like (store s r d) (store s r d) := by
  refine Attempt.coupled_bind (stepsLike_storeAnswer ht _ _) fun x y hxy => ?_
  obtain ⟨log, citations⟩ := x
  obtain ⟨log', citations'⟩ := y
  have same : log.isSome = log'.isSome := by
    have := congrArg Option.isSome hxy.1
    simpa using this
  refine stepsLike_stamped fun id time id' time' => ?_
  have result := unstamped_result (s := s) (r := r) (d := d) same id id' time time'
  refine Attempt.coupled_bind (stepsLike_persist ht (inStep_saveResult result)) fun _ _ _ => ?_
  exact Attempt.coupled_pure ⟨hxy, result⟩

def WarningsLike (E : Raised → Raised → Prop) (c : CombinedVerdict) (ws ws' : List String) : Prop :=
  ∃ w w', Matching E Eq w w' ∧ ws = noticeWarnings c w ∧ ws' = noticeWarnings c w'

theorem stepsLike_notify (ht : Tolerance E F) {action : String}
    {send send' : Engine (Except Raised Unit)} (hs : InStep E (Matching E Eq) send send') :
    StepsLike E F (fun ws ws' => ∃ w w', Matching E Eq w w' ∧ ws = replyWarnings action w ∧
      ws' = replyWarnings action w') (notify action send) (notify action send') := by
  refine hs.bind fun w w' replies => ?_
  cases replies with
  | ok same => exact .done (.ok ⟨.ok (), .ok (), .ok rfl, rfl, rfl⟩)
  | @error e e' related =>
    have texts := ht.hasText related
    dsimp only
    cases he : e.hasText with
    | true =>
      rw [Raised.text_of_hasText he, Raised.text_of_hasText (texts ▸ he)]
      exact .done (.ok ⟨.error e, .error e', .error related, rfl, rfl⟩)
    | false =>
      rw [Raised.text_of_not_hasText he, Raised.text_of_not_hasText (texts ▸ he)]
      exact .done (.error (ht.same _))

theorem stepsLike_announce (ht : Tolerance E F) (caseId : String) (c : CombinedVerdict) :
    StepsLike E F (WarningsLike E c) (announce caseId c) (announce caseId c) := by
  rw [announce_eq]
  refine Attempt.coupled_bind (stepsLike_notify ht ?_) fun ws ws' warned => ?_
  · cases c.escalate with
    | true => exact inStep_requestReview _ _
    | false => exact inStep_markEvaluated _
  · have counting : (if c.escalate then c.reasons.forM fun x => Engine.count (.escalation x.name)
        else return () : Engine Unit).Only Call.isRemote := by
      split
      · exact only_counts (fun _ => rfl) _ _
      · exact only_done _ _
    exact Attempt.coupled_bind (Attempt.coupled_lift (inStep_remote counting)) fun _ _ _ =>
      Attempt.coupled_pure warned

theorem stepsLike_conclude (ht : Tolerance E F) {x y : Stored} (hxy : x.Like y) :
    StepsLike E F (CheckReport.Alike E) (conclude s r d x) (conclude s r d y) := by
  refine Attempt.coupled_bind (stepsLike_announce ht _ _) fun ws ws' warned => ?_
  have conclusion : x.result.unstamped.conclusion = y.result.unstamped.conclusion :=
    congrArg _ hxy.result
  change x.result.conclusion = y.result.conclusion at conclusion
  rw [conclusion]
  refine Attempt.coupled_bind (R := Eq)
    (Attempt.coupled_lift (inStep_remote (only_perform.2 rfl))) fun _ _ _ => ?_
  obtain ⟨w, w', replies, rfl, rfl⟩ := warned
  refine Attempt.coupled_pure ⟨?_, _, w, w', replies, rfl, rfl⟩
  simp [CheckReport.unstamped, report, hxy.result, hxy.answers.1, hxy.answers.2]

theorem inStep_overFacts (ht : Tolerance E F) (hd : r.evaluationDate = some asOf) :
    InStep E (Matching F (CheckReport.Alike E)) (overFacts s r facts) (overFacts s r facts) := by
  have dated : evaluationDate r = done asOf := by
    rw [evaluationDate, hd]
    rfl
  unfold overFacts
  rw [dated]
  refine Coupled.bind (R := Matching (Unreported F) (CheckReport.Alike E)) ?_ fun x y hxy => ?_
  · rw [steps_eq]
    refine Attempt.coupled_bind (stepsLike_decision ht) fun d d' hd => ?_
    cases hd
    exact Attempt.coupled_bind (stepsLike_store ht) fun x y hxy => stepsLike_conclude ht hxy
  · cases hxy with
    | ok related => exact .done (.ok related)
    | error related =>
      refine (inStep_remote (only_perform.2 rfl)).bind fun _ _ _ => ?_
      exact .done (.error related)

theorem inStep_run (ht : Tolerance E F) (hd : r.evaluationDate = some asOf)
    (unread : ∀ e e', E e e' → F e e') :
    InStep E (Matching F (CheckReport.Alike E)) (run s r) (run s r) := by
  refine (inStep_facts r.caseId).bind fun x y replies => ?_
  cases replies with
  | ok same =>
    cases same
    exact inStep_overFacts ht hd
  | error related => exact .done (.error (unread _ _ related))

end Parts
end Check
end VisaEligibility
