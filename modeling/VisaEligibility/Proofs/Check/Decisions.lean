import VisaEligibility.Proofs.Check.LostAnswers
import VisaEligibility.Proofs.Reasoning.Attribution
/-!
The decision behind what a check writes. It is made on one rule version and, where the model has
answered, on one answer to a prompt that shows the chunks of one search.
-/
set_option autoImplicit false

namespace VisaEligibility

open Program

namespace Check

variable {s : EngineSettings} {r : CheckRequest} {facts : Facts} {d : Decision}
  {h : History Call.interface}

theorem prompted_of_askModel {rule : RuleEvaluation} {ai : AiPart}
    (hr : Returns (askModel s r facts rule).run h (.ok ai)) {c : Assessment}
    (completed : ai.completed = some c) :
    Reasoning.Prompted s.retrieval s.reasoning (reasoningInput r facts rule) h c := by
  unfold askModel at hr
  split at hr
  · obtain ⟨h₁, x, h₂, rfl, hx, hd⟩ := returns_bind.1 hr
    cases x with
    | error f => cases (returns_done.1 hd).2
    | ok x =>
      obtain ⟨rfl, he⟩ := returns_done.1 hd
      cases he
      obtain ⟨h', y, rfl, completing, ended⟩ := Reasoning.completing_of_run hx
      rcases ended with ⟨c', rfl, rfl⟩ | ⟨f, stage, -, -, rfl⟩
      · cases completed
        rw [List.append_nil]
        refine completing.prompted.mono (fun _ => List.mem_append_left _) ?_ ?_
        · exact (answers_append ..).trans (List.append_nil _)
        · exact (findings_append ..).trans (List.append_nil _)
      · cases completed
  · cases (returns_done.1 hr).2
    cases completed

/-- The decision of a check: it applies one version, and rests on the answer of the model if there
is one. -/
structure Decides (s : EngineSettings) (r : CheckRequest) (facts : Facts)
    (h : History Call.interface) (d : Decision) : Prop where
  version : ∃ v, readVersions h = [v] ∧ d.rule = v.evaluate facts s.thresholds
  lost : d.ai.completed = none → answers h = []
  prompted : ∀ c, d.ai.completed = some c →
    Reasoning.Prompted s.retrieval s.reasoning (reasoningInput r facts d.rule) h c

def isWriting : Call → Bool
  | .now => true
  | .newId => true
  | .saveLog _ => true
  | .saveCitations _ => true
  | .saveResult _ => true
  | c => isConcluding c

theorem unasked_of_isWriting (hh : ∀ x ∈ h, isWriting x.call = true) :
    readVersions h = [] ∧ answers h = [] ∧ findings h = [] := by
  refine ⟨List.filterMap_eq_nil_iff.2 ?_, List.filterMap_eq_nil_iff.2 ?_,
    List.filterMap_eq_nil_iff.2 ?_⟩
  all_goals
    rintro ⟨c, reply⟩ hx
    have writing := hh _ hx
    cases c <;> first | rfl | cases writing

theorem unstored_of_isConcluding (hh : ∀ x ∈ h, isConcluding x.call = true) :
    triedResults h = [] ∧ storedLogs h = [] ∧ storedCitations h = [] := by
  refine ⟨List.filterMap_eq_nil_iff.2 ?_, List.filterMap_eq_nil_iff.2 ?_,
    List.flatMap_eq_nil_iff.2 ?_⟩
  all_goals
    rintro ⟨c, reply⟩ hx
    have concluding := hh _ hx
    cases c <;> first | rfl | cases concluding

theorem unstored_of_quiet (quiet : Quiet h) :
    triedResults h = [] ∧ storedLogs h = [] ∧ storedCitations h = [] := by
  refine ⟨triedResults_of_quiet quiet, storedLogs_of_quiet quiet, List.flatMap_eq_nil_iff.2 ?_⟩
  rintro ⟨c, reply⟩ hx
  have unwritten := quiet _ hx
  cases c <;> first | rfl | cases unwritten

theorem Storing.isWriting {x : Except Raised Stored} (hs : Storing s r d h x) :
    ∀ x ∈ h, isWriting x.call = true := by
  have answer {y : Except Raised (Option ReasoningLog × List Citation)}
      {h : History Call.interface} (ha : AnswerStored r.caseId d.ai h y) :
      ∀ x ∈ h, Check.isWriting x.call = true := by
    cases ha <;> simp [stamp, Check.isWriting]
  cases hs with
  | answerLost ha => exact answer ha
  | resultFailed ha id time e =>
    exact List.forall_mem_append.2 ⟨answer ha, by simp [saving, stamp, Check.isWriting]⟩
  | stored ha id time =>
    exact List.forall_mem_append.2 ⟨answer ha, by simp [saving, stamp, Check.isWriting]⟩

theorem Decides.append {h' : History Call.interface} (hd : Decides s r facts h d)
    (hh : ∀ x ∈ h', isWriting x.call = true) : Decides s r facts (h ++ h') d := by
  obtain ⟨unread, unanswered, unfound⟩ := unasked_of_isWriting hh
  have given : answers (h ++ h') = answers h := by
    rw [answers_append, unanswered, List.append_nil]
  have found : findings (h ++ h') = findings h := by
    rw [findings_append, unfound, List.append_nil]
  refine ⟨?_, fun hc => given.trans (hd.lost hc), fun c hc =>
    (hd.prompted c hc).mono (fun _ => List.mem_append_left _) given found⟩
  rw [readVersions_append, unread, List.append_nil]
  exact hd.version

theorem Decides.of_returns {h₁ h₂ : History Call.interface} {asOf : Instant}
    (dated : Returns (evaluationDate r) h₁ asOf)
    (decided : Returns (decision s r facts asOf).run h₂ (.ok d)) :
    Decides s r facts (h₁ ++ h₂) d := by
  have undated : readVersions h₁ = [] ∧ answers h₁ = [] ∧ findings h₁ = [] := by
    rcases eq_of_returns_evaluationDate dated with rfl | rfl <;> exact ⟨rfl, rfl, rfl⟩
  obtain ⟨unread, unanswered, unfound⟩ := undated
  have lost := (Decided.of_returns dated decided).lost
  cases Deciding.of_returns decided with
  | @decided v h' ai asked =>
    have given : answers (h₁ ++ ⟨.ruleVersion r.visaTypeId asOf, .ok v⟩ :: h') = answers h' := by
      rw [answers_append, unanswered]
      rfl
    have found : findings (h₁ ++ ⟨.ruleVersion r.visaTypeId asOf, .ok v⟩ :: h') = findings h' := by
      rw [findings_append, unfound]
      rfl
    refine ⟨⟨v, ?_, rfl⟩, lost, fun c hc =>
      (prompted_of_askModel asked hc).mono (fun x hx => by simp [hx]) given found⟩
    rw [readVersions_append, unread]
    exact congrArg (v :: ·) (readVersions_of_remote (remote_askModel asked))

theorem Course.decides {x : Except Raised CheckReport} (hc : Course s r facts h x) :
    Quiet h ∨ ∃ d h' z, Decides s r facts h d ∧ Storing s r d h' z ∧
      triedResults h = triedResults h' ∧ storedLogs h = storedLogs h' ∧
      storedCitations h = storedCitations h' := by
  have written {h₁ h₂ h₃ h₄ : History Call.interface} {asOf : Instant} {d : Decision}
      {z : Except Raised Stored} (dated : Returns (evaluationDate r) h₁ asOf)
      (decided : Returns (decision s r facts asOf).run h₂ (.ok d)) (storing : Storing s r d h₃ z)
      (last : ∀ x ∈ h₄, isConcluding x.call = true) :
      ∃ d h' z, Decides s r facts (h₁ ++ h₂ ++ h₃ ++ h₄) d ∧ Storing s r d h' z ∧
        triedResults (h₁ ++ h₂ ++ h₃ ++ h₄) = triedResults h' ∧
        storedLogs (h₁ ++ h₂ ++ h₃ ++ h₄) = storedLogs h' ∧
        storedCitations (h₁ ++ h₂ ++ h₃ ++ h₄) = storedCitations h' := by
    have quiet := (quiet_evaluationDate dated).append (quiet_decision decided)
    obtain ⟨untried, unlogged, uncited⟩ := unstored_of_quiet quiet
    obtain ⟨untried', unlogged', uncited'⟩ := unstored_of_isConcluding last
    refine ⟨d, h₃, z, ?_, storing, ?_, ?_, ?_⟩
    · refine ((Decides.of_returns dated decided).append storing.isWriting).append fun x hx => ?_
      have concluding := last x hx
      generalize x.call = c at concluding
      cases c <;> first | rfl | cases concluding
    · rw [triedResults_append, triedResults_append, untried, untried', List.append_nil]
      rfl
    · rw [storedLogs_append, storedLogs_append, unlogged, unlogged', List.append_nil]
      rfl
    · rw [storedCitations_append, storedCitations_append, uncited, uncited', List.append_nil]
      rfl
  have counted : ∀ x ∈ [failureCount], isConcluding x.call = true := by
    simp [failureCount, isConcluding]
  cases hc with
  | undecided dated failed =>
    exact .inl (((quiet_evaluationDate dated).append (quiet_decision failed)).append
      quiet_failureCount)
  | unstored dated decided failed =>
    exact .inr (written dated decided (.of_returns failed) counted)
  | @untold h₁ h₂ h₃ h₄ asOf d y e dated decided stored failed =>
    have last := List.forall_mem_append.2 ⟨(only_conclude d y).of_reaches failed, counted⟩
    have writes := written dated decided (.of_returns stored) last
    rw [← List.append_assoc] at writes
    exact .inr writes
  | @concluded h₁ h₂ h₃ h₄ asOf d y z dated decided stored last =>
    exact .inr (written dated decided (.of_returns stored) ((only_conclude d y).of_reaches last))

end Check
end VisaEligibility
