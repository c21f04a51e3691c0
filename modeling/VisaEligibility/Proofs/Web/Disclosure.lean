import VisaEligibility.Bench.Service
import VisaEligibility.Proofs.Check.BatchReport
import VisaEligibility.Proofs.Check.Likeness
import VisaEligibility.Proofs.Program.Interleaving
/-!
What the answer to a request for checks discloses of internal errors. Two executions that differ only
in the messages of such errors are answered alike, but for the places where messages are repeated:
the warnings about notifications and the list of failures.
-/
set_option autoImplicit false

namespace VisaEligibility

open Program

/-- The same error, or internal errors that differ only in their messages. -/
inductive Reworded : Raised → Raised → Prop where
  | same (e : Raised) : Reworded e e
  | internal {f : Failure} (hf : f.isApplication = false) (message : String) :
      Reworded (.failure f) (.failure { f with message })

/-- Reworded errors, or failures of a write with reworded causes. -/
inductive RewordedEnd : Raised → Raised → Prop where
  | reworded {e e' : Raised} (same : Reworded e e') : RewordedEnd e e'
  | unsaved (entity : String) {e e' : Raised} (same : Reworded e e') :
      RewordedEnd (.failure (.persistence entity e)) (.failure (.persistence entity e'))

theorem Reworded.hasText_eq {e e' : Raised} (h : Reworded e e') : e.hasText = e'.hasText := by
  cases h <;> rfl

theorem Reworded.reported {e e' : Raised} (h : Reworded e e') : Reworded e.reported e'.reported := by
  cases h with
  | same e => exact .same _
  | internal hf message => exact .internal hf message

theorem tolerance_reworded : Tolerance Reworded RewordedEnd where
  hasText h := h.hasText_eq
  same e := .reworded (.same e)
  reported h := .reworded h.reported
  persistence entity _ _ h := .unsaved entity h

/-! ### What is left when messages are withheld -/

def noticeHeads : List String := ["human review request failed: ", "case status update failed: "]

/-- A warning without the message of a failed notification. -/
def concealedWarning (w : String) : String :=
  (noticeHeads.find? fun head => head.toList.isPrefixOf w.toList).getD w

def CheckReport.concealed (y : CheckReport) : CheckReport :=
  { y.unstamped with warnings := y.warnings.map concealedWarning }

def internalCodes : List String := ["INTERNAL_SERVER_ERROR", "PERSISTENCE_FAILURE"]

def BatchFailure.concealed (f : BatchFailure) : BatchFailure :=
  if f.code ∈ internalCodes then { f with message := Raised.unexpectedMessage } else f

def BatchReport.concealed (r : BatchReport) : BatchReport :=
  { r with reports := r.reports.map (·.concealed), failures := r.failures.map (·.concealed) }

theorem concealedWarning_append {head : String} (hh : head ∈ noticeHeads) (message : String) :
    concealedWarning (head ++ message) = head := by
  have self (head message : String) : head.toList.isPrefixOf (head ++ message).toList = true := by
    rw [String.toList_append]
    exact List.isPrefixOf_iff_prefix.2 (List.prefix_append _ _)
  have other : "human review request failed: ".toList.isPrefixOf
      ("case status update failed: " ++ message).toList = false := by
    rw [String.toList_append]
    rfl
  unfold concealedWarning noticeHeads
  rcases List.mem_pair.1 hh with rfl | rfl
  · simp only [List.find?_cons, self, Option.getD_some]
  · simp only [List.find?_cons, self, other, Option.getD_some]

theorem noticeName_mem (c : CombinedVerdict) : Check.noticeName c ++ " failed: " ∈ noticeHeads := by
  unfold Check.noticeName
  cases c.escalate <;> decide +kernel

theorem CheckReport.Alike.concealed_eq {E : Raised → Raised → Prop} {y y' : CheckReport}
    (h : CheckReport.Alike E y y') : y.concealed = y'.concealed := by
  have combined := h.combined_eq
  obtain ⟨core, base, w, w', replies, warned, warned'⟩ := h
  have warnings : y.warnings.map concealedWarning = y'.warnings.map concealedWarning := by
    rw [warned, warned', ← combined, List.map_append, List.map_append]
    cases replies with
    | ok same => rw [same]
    | error related =>
      have withheld (e : Raised) : (Check.noticeWarnings y.combined (.error e)).map concealedWarning =
          [Check.noticeName y.combined ++ " failed: "] :=
        congrArg (fun w => [w]) (concealedWarning_append (noticeName_mem _) _)
      rw [withheld, withheld]
  exact congrArg₂ (fun (z : CheckReport) ws => { z with warnings := ws }) core warnings

theorem BatchFailure.concealed_eq {e e' : Raised} (h : RewordedEnd e e') (v : String) :
    (Batch.failureOf v e).concealed = (Batch.failureOf v e').concealed := by
  cases h with
  | reworded same =>
    cases same with
    | same e => rfl
    | @internal f hf message =>
      have hidden (message : String) : (Batch.failureOf v (.failure { f with message })).concealed =
          ⟨v, "INTERNAL_SERVER_ERROR", Raised.unexpectedMessage⟩ := by
        have plain : ({ f with message } : Failure).isApplication = false := hf
        simp only [Batch.failureOf, Raised.toFailure, plain]
        rfl
      exact (hidden f.message).trans (hidden message).symm
  | unsaved entity same =>
    cases same with
    | same e => rfl
    | internal hf message => rfl

theorem ErrorReport.ofRaised_reworded {e e' : Raised} (h : Reworded e e') (path : String) :
    ErrorReport.ofRaised e path = ErrorReport.ofRaised e' path := by
  cases h with
  | same e => rfl
  | @internal f hf message =>
    have hf' : ({ f with message } : Failure).isApplication = false := hf
    simp only [ErrorReport.ofRaised, hf, hf']
    rfl

theorem filterMap_eq_of_forall₂ {α β γ : Type} {f : α → Option γ} {g : β → Option γ} {l : List α}
    {l' : List β} (h : List.Forall₂ (fun a b => f a = g b) l l') : l.filterMap f = l'.filterMap g := by
  induction h with
  | nil => rfl
  | cons first _ ih => rw [List.filterMap_cons, List.filterMap_cons, first, ih]

theorem Batch.summary_of_concealed {caseId : String} {xs ys : List (String × Except Raised CheckReport)}
    (total : xs.length = ys.length)
    (reports : (report caseId xs).reports.map (·.concealed) =
      (report caseId ys).reports.map (·.concealed))
    (failures : (report caseId xs).failures.map (·.concealed) =
      (report caseId ys).failures.map (·.concealed)) :
    (report caseId xs).summary = (report caseId ys).summary := by
  have escalated (rs : List CheckReport) : (rs.filter fun r => r.result.escalated).length =
      ((rs.map (·.concealed)).filter fun r => r.result.escalated).length := by
    rw [List.filter_map, List.length_map]
    rfl
  have counts (rs : List CheckReport) : outcomeCounts rs = outcomeCounts (rs.map (·.concealed)) := by
    unfold outcomeCounts
    rw [List.map_map]
    rfl
  have parts (zs : List (String × Except Raised CheckReport)) : (report caseId zs).summary =
      ⟨zs.length, ((report caseId zs).reports.map (·.concealed)).length,
        ((report caseId zs).failures.map (·.concealed)).length,
        (((report caseId zs).reports.map (·.concealed)).filter fun r => r.result.escalated).length,
        outcomeCounts ((report caseId zs).reports.map (·.concealed))⟩ := by
    rw [← escalated, ← counts, List.length_map, List.length_map]
    rfl
  rw [parts xs, parts ys, total, reports, failures]

theorem Batch.report_concealed_eq (caseId : String) (visaTypeIds : List String)
    {xs ys : List (Except Raised CheckReport)}
    (alike : List.Forall₂ (Matching RewordedEnd (CheckReport.Alike Reworded)) xs ys) :
    (report caseId (visaTypeIds.zip xs)).concealed =
      (report caseId (visaTypeIds.zip ys)).concealed := by
  have zipped : List.Forall₂ (fun a b => a.1 = b.1 ∧
      Matching RewordedEnd (CheckReport.Alike Reworded) a.2 b.2)
      (visaTypeIds.zip xs) (visaTypeIds.zip ys) := by
    induction alike generalizing visaTypeIds with
    | nil => simp
    | cons first _ ih =>
      cases visaTypeIds with
      | nil => exact .nil
      | cons v vs => exact .cons ⟨rfl, first⟩ (ih vs)
  generalize visaTypeIds.zip xs = xs, visaTypeIds.zip ys = ys at zipped
  have reports : (report caseId xs).reports.map (·.concealed) =
      (report caseId ys).reports.map (·.concealed) := by
    unfold report
    simp only [List.map_filterMap]
    refine filterMap_eq_of_forall₂ (zipped.imp fun a b h => ?_)
    obtain ⟨v, x⟩ := a
    obtain ⟨v', y⟩ := b
    cases h.2 with
    | ok related => exact congrArg some related.concealed_eq
    | error _ => rfl
  have failures : (report caseId xs).failures.map (·.concealed) =
      (report caseId ys).failures.map (·.concealed) := by
    unfold report
    simp only [List.map_filterMap]
    refine filterMap_eq_of_forall₂ (zipped.imp fun a b h => ?_)
    obtain ⟨v, x⟩ := a
    obtain ⟨v', y⟩ := b
    obtain ⟨rfl, h⟩ := h
    cases h with
    | ok _ => rfl
    | error related => exact congrArg some (BatchFailure.concealed_eq related v)
  have summary := summary_of_concealed zipped.length_eq reports failures
  simp only [BatchReport.concealed, reports, failures, summary]
  rfl

theorem Batch.outcomes_alike {s : EngineSettings} {caseId : String} {o : BatchOptions}
    {facts : Facts} {asOf : Instant} {visaTypeIds : List String}
    {during during' : SharedHistory Call.interface} {xs ys : List (Except Raised CheckReport)}
    (ended : Interleaves (checks s caseId o facts asOf visaTypeIds) during (xs.map done))
    (ended' : Interleaves (checks s caseId o facts asOf visaTypeIds) during' (ys.map done))
    (checked : ∀ n, List.Forall₂ (Alike Reworded) (own n during) (own n during')) :
    List.Forall₂ (Matching RewordedEnd (CheckReport.Alike Reworded)) xs ys := by
  have length : xs.length = ys.length := by
    have := ended.length_eq.trans ended'.length_eq.symm
    simpa using this
  refine List.forall₂_iff_get.2 ⟨length, fun n hn hn' => ?_⟩
  obtain ⟨p, hp, hr⟩ := ended.reaches (n := n) (q := done xs[n]) (by simp [hn])
  obtain ⟨p', hp', hr'⟩ := ended'.reaches (n := n) (q := done ys[n]) (by simp [hn'])
  cases hp.symm.trans hp'
  simp only [checks, List.getElem?_map, Option.map_eq_some_iff] at hp
  obtain ⟨v, -, rfl⟩ := hp
  exact (Check.inStep_overFacts tolerance_reworded rfl).related hr hr' (checked n)

/-! ### Requests for checks -/

/-- What is exchanged before the checks of a batch: the same, or errors of the facts source that are
reworded. -/
inductive ReadAlike : Exchange Call.interface → Exchange Call.interface → Prop where
  | same (x : Exchange Call.interface) : ReadAlike x x
  | unread {caseId : String} {e e' : Raised} (same : Reworded e e') :
      ReadAlike ⟨.facts caseId, .error e⟩ ⟨.facts caseId, .error e'⟩

theorem Batch.coupled_prepare (caseId : String) (o : BatchOptions) :
    Coupled Eq ReadAlike (Matching Reworded Eq) (prepare caseId o) (prepare caseId o) := by
  have read : Coupled Eq ReadAlike (Matching Reworded Eq) (Engine.facts caseId)
      (Engine.facts caseId) := by
    refine Coupled.perform (I := Call.interface) (A := Eq) (c := .facts caseId) (d := .facts caseId)
      rfl fun x y hs => ?_
    cases hs with
    | same x =>
      cases x with
      | ok facts => exact .ok rfl
      | error e => exact .error (.same e)
    | unread same => exact .error same
  refine read.bind fun x y replies => ?_
  cases replies with
  | error same => exact .done (.error same)
  | ok same =>
    cases same
    dsimp only
    cases o.evaluationDate with
    | some d => exact .done (.ok rfl)
    | none =>
      refine Coupled.bind (R := Eq) ?_ fun t t' same => same ▸ .done (.ok rfl)
      refine Coupled.perform (I := Call.interface) (A := Eq) (c := .now) (d := .now)
        rfl fun t t' hs => ?_
      cases hs
      rfl

namespace Web

open Bench (Service)

def Accepted (r : Request) (caseId : String) (b : CheckBody) : Prop :=
  ∃ body place caseText, r.value? = some body ∧
    Destination.ofRequest r.method r.path = .page place caseText ∧ place.page = .check ∧
    Service.checkInput caseText body = .ok (caseId, b)

theorem Accepted.unique {r : Request} {caseId caseId' : String} {b b' : CheckBody}
    (h : Accepted r caseId b) (h' : Accepted r caseId' b') : caseId = caseId' ∧ b = b' := by
  obtain ⟨body, place, caseText, hv, hd, -, hi⟩ := h
  obtain ⟨body', place', caseText', hv', hd', -, hi'⟩ := h'
  cases hv.symm.trans hv'
  cases hd.symm.trans hd'
  cases hi.symm.trans hi'
  exact ⟨rfl, rfl⟩

def responded (path : String) (now : Instant) : Except Raised BatchReport → Answer
  | .ok y => .json 200 y.view
  | .error e => .ofRaised e path now

theorem Accepted.reply {r : Request} {caseId : String} {b : CheckBody} (h : Accepted r caseId b)
    (sv : Service) (s : Bench.Session) :
    (sv.reply r s).1.answer = responded r.path s.bench.now
      (s.checkBatch sv.settings caseId b.visaTypeIds b.options).1 := by
  obtain ⟨body, place, caseText, hv, hd, hp, hi⟩ := h
  have checked : sv.page place.page caseText body s =
      ((s.checkBatch sv.settings caseId b.visaTypeIds b.options).1.map fun y => .json 200 y.view,
        (s.checkBatch sv.settings caseId b.visaTypeIds b.options).2) := by
    rw [hp]
    change sv.check caseText body s = _
    unfold Service.check Service.perform
    rw [hi]
  unfold Service.reply
  rw [hv]
  simp only [hd, checked]
  cases (s.checkBatch sv.settings caseId b.visaTypeIds b.options).1 <;> rfl

/-- The executions of an accepted request: its batch fails to prepare or ends, with the checks side
by side. -/
inductive Executed (s : EngineSettings) (r : Request) :
    History Call.interface → SharedHistory Call.interface → Except Raised BatchReport → Prop where
  | unread {caseId : String} {b : CheckBody} {h : History Call.interface} {e : Raised}
      (accepted : Accepted r caseId b)
      (failed : Returns (Batch.prepare caseId b.options) h (.error e)) :
      Executed s r h [] (.error e)
  | checked {caseId : String} {b : CheckBody} {h : History Call.interface} {facts : Facts}
      {asOf : Instant} {h' : SharedHistory Call.interface}
      {outcomes : List (Except Raised CheckReport)} (accepted : Accepted r caseId b)
      (prepared : Returns (Batch.prepare caseId b.options) h (.ok (facts, asOf)))
      (ended : Interleaves (Batch.checks s caseId b.options facts asOf b.visaTypeIds) h'
        (outcomes.map done)) :
      Executed s r h h' (.ok (Batch.report caseId (b.visaTypeIds.zip outcomes)))

/-- What the answer to an accepted request discloses of internal errors. Executions that differ only
in the messages of such errors, in ids and in times have the same status, and the same content but
for ids, times, the messages in warnings about failed notifications and those of failures with
internal codes. When the facts cannot be read the answers are the same. -/
theorem messages_confined {s : EngineSettings} {r : Request} {h h' : History Call.interface}
    {during during' : SharedHistory Call.interface} {x x' : Except Raised BatchReport}
    (hx : Executed s r h during x) (hx' : Executed s r h' during' x')
    (read : List.Forall₂ ReadAlike h h')
    (checked : ∀ n, List.Forall₂ (Alike Reworded) (own n during) (own n during'))
    (path : String) (now : Instant) :
    (responded path now x).status = (responded path now x').status ∧
      responded path now (x.map (·.concealed)) = responded path now (x'.map (·.concealed)) ∧
      ((∃ e, x = .error e) → responded path now x = responded path now x') := by
  cases hx with
  | @unread caseId b h e accepted failed =>
    cases hx' with
    | unread accepted' failed' =>
      obtain ⟨rfl, rfl⟩ := accepted.unique accepted'
      cases (Batch.coupled_prepare caseId b.options).related failed failed' read with
      | error same =>
        have answered : responded path now (.error e) = responded path now (.error _) :=
          congrArg (fun report => Answer.ofError report now) (ErrorReport.ofRaised_reworded same path)
        exact ⟨congrArg _ answered, answered, fun _ => answered⟩
    | checked accepted' prepared' ended' =>
      obtain ⟨rfl, rfl⟩ := accepted.unique accepted'
      cases (Batch.coupled_prepare caseId b.options).related failed prepared' read
  | @checked caseId b h facts asOf during outcomes accepted prepared ended =>
    cases hx' with
    | unread accepted' failed' =>
      obtain ⟨rfl, rfl⟩ := accepted.unique accepted'
      cases (Batch.coupled_prepare caseId b.options).related prepared failed' read
    | checked accepted' prepared' ended' =>
      obtain ⟨rfl, rfl⟩ := accepted.unique accepted'
      cases (Batch.coupled_prepare caseId b.options).related prepared prepared' read with
      | ok same =>
        cases same
        have alike := Batch.outcomes_alike ended ended' checked
        have shown := Batch.report_concealed_eq caseId b.visaTypeIds alike
        refine ⟨rfl, congrArg (fun y => responded path now (.ok y)) shown, ?_⟩
        rintro ⟨e, he⟩
        cases he

def deafWorld (reason : String) : (c : Call) → Call.Reply c :=
  Check.bareWorld default (.ok ()) (.error (.failure (.general reason)))

theorem deafWorld_alike (reason reason' : String) :
    AnsweredAlike Reworded (deafWorld reason) (deafWorld reason') := by
  have told : Matching Reworded Eq (.error (.failure (.general reason)) : Except Raised Unit)
      (.error (.failure (.general reason'))) :=
    .error (.internal (f := .general reason) rfl reason')
  have remote : ∀ c : Call, c.isRemote = true → deafWorld reason c = deafWorld reason' c := by
    intro c hc
    cases c <;> first | rfl | cases hc
  exact
    { remote
      facts := fun _ => .ok rfl
      ruleVersion := fun _ _ => .ok rfl
      saveLog := fun _ _ _ => .ok rfl
      saveCitations := fun _ _ _ => .ok rfl
      saveResult := fun _ _ _ => .ok rfl
      requestReview := fun _ _ => told
      markEvaluated := fun _ => told }

def plainSettings : EngineSettings := { aiReasoningEnabled := false }

def checkRequest : Request where
  method := "POST"
  target := "/api/cases/case-1/eligibility"
  headers := [("content-type", "application/json")]
  body := some "\x7b\"visaTypeIds\":[\"visa-1\"]\x7d"

def checkRequestBody : CheckBody := ⟨["visa-1"], none, none, none⟩

theorem accepted_checkRequest : Accepted checkRequest "case-1" checkRequestBody := by
  have route : Destination.ofRequest checkRequest.method checkRequest.path =
      .page ⟨.check, "/api", "case-1"⟩ "case-1" := by decide +kernel
  have input : (checkRequest.value?.bind fun body =>
      (Service.checkInput "case-1" body).toOption) = some ("case-1", checkRequestBody) := by
    decide +kernel
  obtain ⟨body, hv, hi⟩ := Option.bind_eq_some_iff.1 input
  refine ⟨body, _, _, hv, route, rfl, ?_⟩
  cases hc : Service.checkInput "case-1" body with
  | error e =>
    rw [hc] at hi
    cases hi
  | ok asked =>
    rw [hc] at hi
    exact congrArg Except.ok (Option.some.inj hi)

def deafCheck (reason : String) : History Call.interface × Except Raised CheckReport :=
  trace (deafWorld reason) (Check.overFacts plainSettings
    (Batch.request "case-1" checkRequestBody.options (.ofMillis 0) "visa-1") .empty)

def deafReport (reason : String) : BatchReport :=
  Batch.report "case-1" (["visa-1"].zip [(deafCheck reason).2])

def deafReading : History Call.interface :=
  (trace (deafWorld "") (Batch.prepare "case-1" checkRequestBody.options)).1

theorem executed_deaf (reason : String) : Executed plainSettings checkRequest deafReading
    ((deafCheck reason).1.map (Prod.mk 0)) (.ok (deafReport reason)) :=
  .checked accepted_checkRequest (returns_trace (I := Call.interface) (deafWorld "") _)
    (.of_reaches (n := 0) rfl (returns_trace (I := Call.interface) (deafWorld reason) _))

theorem deafCheck_alike (reason reason' : String) (n : Nat) :
    List.Forall₂ (Alike Reworded) (own n ((deafCheck reason).1.map (Prod.mk 0)))
      (own n ((deafCheck reason').1.map (Prod.mk 0))) := by
  by_cases hn : 0 = n
  · subst hn
    rw [own_map_self, own_map_self]
    exact (Check.inStep_overFacts tolerance_reworded rfl).trace_alike fun c d like =>
      (deafWorld_alike reason reason').alike like
  · rw [own_map_of_ne hn, own_map_of_ne hn]
    exact .nil

/-- Two reasons why a review request fails. -/
theorem messages_confined_deaf :
    Executed plainSettings checkRequest deafReading
        ((deafCheck "offline: db-1").1.map (Prod.mk 0)) (.ok (deafReport "offline: db-1")) ∧
      Executed plainSettings checkRequest deafReading
        ((deafCheck "offline: db-2").1.map (Prod.mk 0)) (.ok (deafReport "offline: db-2")) ∧
      responded checkRequest.path (.ofMillis 0) (.ok (deafReport "offline: db-1").concealed) =
        responded checkRequest.path (.ofMillis 0) (.ok (deafReport "offline: db-2").concealed) := by
  have read : List.Forall₂ ReadAlike deafReading deafReading :=
    List.forall₂_same.2 fun x _ => .same x
  have confined := messages_confined (executed_deaf "offline: db-1") (executed_deaf "offline: db-2")
    read (deafCheck_alike _ _) checkRequest.path (.ofMillis 0)
  exact ⟨executed_deaf _, executed_deaf _, confined.2.1⟩

def shownWarnings (a : Answer) : List (List String) :=
  match a.content with
  | .json v => (v.itemsAt "results").map fun result => result.textsAt "warnings"
  | _ => []

/-- The answer repeats why the review request has failed. -/
theorem warning_repeats_message :
    ∃ reason reason' : String,
      Executed plainSettings checkRequest deafReading ((deafCheck reason).1.map (Prod.mk 0))
        (.ok (deafReport reason)) ∧
      Executed plainSettings checkRequest deafReading ((deafCheck reason').1.map (Prod.mk 0))
        (.ok (deafReport reason')) ∧
      (∀ n, List.Forall₂ (Alike Reworded) (own n ((deafCheck reason).1.map (Prod.mk 0)))
        (own n ((deafCheck reason').1.map (Prod.mk 0)))) ∧
      responded checkRequest.path (.ofMillis 0) (.ok (deafReport reason)) ≠
        responded checkRequest.path (.ofMillis 0) (.ok (deafReport reason')) := by
  refine ⟨"offline: db-1", "offline: db-2", executed_deaf _, executed_deaf _, deafCheck_alike _ _, ?_⟩
  intro same
  have shown := congrArg shownWarnings same
  have apart : shownWarnings (responded checkRequest.path (.ofMillis 0)
      (.ok (deafReport "offline: db-1"))) ≠ shownWarnings (responded checkRequest.path
        (.ofMillis 0) (.ok (deafReport "offline: db-2"))) := by decide +kernel
  exact apart shown

end Web
end VisaEligibility
