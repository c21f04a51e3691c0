import VisaEligibility.Clock.World
import VisaEligibility.Proofs.Check.Writes
import VisaEligibility.Proofs.Reasoning.Resolution
import VisaEligibility.Proofs.Rule.Selection
/-!
Why a check fails. Its sources or its writes have failed, no version is in force, or it asks the
model about facts that hold an invalid instant.
-/
set_option autoImplicit false

namespace VisaEligibility

open Program

theorem RuleLookups.findCached_error {l : RuleLookups} {visaTypeId : String} {asOf : Instant}
    {e : Raised} (he : (l.findCached [] visaTypeId asOf).1 = .error e) :
    l.source.fault = some e ∨ (asOf = .invalid ∧ e = .failure .invalidTime) ∨
      e = .failure (.noRuleVersion visaTypeId asOf) ∧
        ∀ v ∈ l.source.versions, v.visaTypeId = visaTypeId → v.isInForce asOf = false := by
  cases asOf with
  | invalid =>
    cases he
    exact .inr (.inl ⟨rfl, rfl⟩)
  | ofMillis ms =>
    change (l.source.find visaTypeId (.ofMillis ms)).bind
      (RuleVersion.choose visaTypeId (.ofMillis ms)) = .error e at he
    unfold RuleSource.find at he
    cases hf : l.source.fault with
    | some e' =>
      rw [hf] at he
      cases he
      exact .inl rfl
    | none =>
      rw [hf] at he
      simp only [Except.bind, RuleVersion.choose] at he
      split at he
      · rename_i hs
        cases he
        refine .inr (.inr ⟨rfl, ?_⟩)
        intro v hv ht
        cases hi : v.isInForce (.ofMillis ms) with
        | false => rfl
        | true =>
          have hn := RuleVersion.select_eq_none_iff.1 hs v (List.mem_filter.2 ⟨hv, by simp [ht, hi]⟩)
          rw [hi] at hn
          cases hn
      · rw [if_neg (by simp [Instant.isValid])] at he
        cases he

namespace Check

section Parts

variable {s : EngineSettings} {r : CheckRequest} {facts : Facts} {h : History Call.interface}

theorem askModel_error {rule : RuleEvaluation} {e : Raised}
    (hc : Configured s.retrieval s.reasoning)
    (hr : Returns (askModel s r facts rule).run h (.error e)) :
    asksModel s r = true ∧ ¬facts.Dated ∧ e = .failure .invalidTime := by
  unfold askModel at hr
  split at hr
  · rename_i asked
    refine ⟨asked, ?_⟩
    obtain ⟨h₁, x, h₂, -, hx, hd⟩ := returns_bind.1 hr
    by_cases hf : facts.Dated
    · obtain ⟨y, rfl⟩ := Reasoning.resolves_of_dated hc hf hx
      cases (returns_done.1 hd).2
    · rw [Reasoning.run_of_not_dated hf] at hx
      obtain ⟨-, rfl⟩ := returns_done.1 hx
      cases (returns_done.1 hd).2
      exact ⟨hf, rfl⟩
  · cases (Attempt.returns_pure.1 hr).2

theorem askModel_of_not_dated {rule : RuleEvaluation} (asked : asksModel s r = true)
    (hf : ¬facts.Dated) :
    Returns (askModel s r facts rule).run [] (.error (.failure .invalidTime)) := by
  unfold askModel
  rw [if_pos asked]
  refine returns_bind.2 ⟨[], .error .invalidTime, [], rfl, ?_, returns_done.2 ⟨rfl, rfl⟩⟩
  rw [Reasoning.run_of_not_dated hf]
  exact returns_done.2 ⟨rfl, rfl⟩

theorem dated_of_askModel {rule : RuleEvaluation} {ai : AiPart} (asked : asksModel s r = true)
    (hr : Returns (askModel s r facts rule).run h (.ok ai)) : facts.Dated := by
  unfold askModel at hr
  rw [if_pos asked] at hr
  obtain ⟨h₁, x, h₂, -, hx, hd⟩ := returns_bind.1 hr
  refine Classical.byContradiction fun hf => ?_
  rw [Reasoning.run_of_not_dated hf] at hx
  obtain ⟨-, rfl⟩ := returns_done.1 hx
  cases (returns_done.1 hd).2

theorem AnswerStored.error {caseId : String} {p : AiPart} {e : Raised}
    (ha : AnswerStored caseId p h (.error e)) : ∃ x ∈ h, writeError? x ≠ none := by
  cases ha with
  | logFailed hp id time e =>
    exact ⟨_, List.mem_append_right _ (List.mem_singleton.2 rfl), by simp [writeError?]⟩
  | citationsFailed hp id time hc e =>
    exact ⟨_, List.mem_append_right _ (List.mem_cons_of_mem _ (List.mem_singleton.2 rfl)),
      by simp [writeError?]⟩

theorem Storing.error {d : Decision} {e : Raised} (hs : Storing s r d h (.error e)) :
    ∃ x ∈ h, writeError? x ≠ none := by
  cases hs with
  | answerLost answer => exact answer.error
  | @resultFailed h log citations answer id time e =>
    refine ⟨⟨.saveResult (d.result s r log id time), .error e⟩, ?_, by simp [writeError?]⟩
    exact List.mem_append_right _ (List.mem_append_right _ (List.mem_singleton.2 rfl))

theorem Course.error {e : Raised} (hc : Configured s.retrieval s.reasoning)
    (course : Course s r facts h (.error e)) :
    (∃ h₁ asOf e', Returns (evaluationDate r) h₁ asOf ∧
        h = h₁ ++ [⟨.ruleVersion r.visaTypeId asOf, .error e'⟩, failureCount] ∧ e = e'.reported) ∨
      (∃ x ∈ h, writeError? x ≠ none) ∨
      (∃ c lost, notice r.caseId c (.error lost) ∈ h ∧ lost.hasText = false) ∨
      asksModel s r = true ∧ ¬facts.Dated ∧ e = .failure .invalidTime := by
  cases course with
  | @undecided h₁ h₂ asOf e dated failed =>
    cases Deciding.of_returns failed with
    | noVersion e => exact .inl ⟨h₁, asOf, e, dated, List.append_assoc .., rfl⟩
    | aborted v asked =>
      obtain ⟨ha, hf, rfl⟩ := askModel_error hc asked
      exact .inr (.inr (.inr ⟨ha, hf, rfl⟩))
  | unstored dated decided failed =>
    obtain ⟨x, hx, hw⟩ := (Storing.of_returns failed).error
    exact .inr (.inl ⟨x, by simp [hx], hw⟩)
  | @untold _ _ _ _ _ d _ _ dated decided stored failed =>
    cases returns_conclude.1 failed with
    | untold lost hl => exact .inr (.inr (.inl ⟨d.combined s, lost, by simp, hl⟩))

theorem Course.dated {y : CheckReport} (course : Course s r facts h (.ok y))
    (asked : asksModel s r = true) : facts.Dated := by
  cases course with
  | concluded dated decided stored last =>
    cases Deciding.of_returns decided with
    | decided v answered => exact dated_of_askModel asked answered

end Parts

/-- A check fails only when its sources or its writes do, or when it asks the model about facts that
hold an invalid instant. -/
theorem run_error {s : EngineSettings} {r : CheckRequest} {h : History Call.interface} {e : Raised}
    (hc : Configured s.retrieval s.reasoning) (hr : Returns (run s r) h (.error e)) :
    ⟨.facts r.caseId, .error e⟩ ∈ h ∨
      (∃ asOf e', ⟨.ruleVersion r.visaTypeId asOf, .error e'⟩ ∈ h ∧ e = e'.reported) ∨
      (∃ x ∈ h, writeError? x ≠ none) ∨
      (∃ c lost, notice r.caseId c (.error lost) ∈ h ∧ lost.hasText = false) ∨
      asksModel s r = true ∧ e = .failure .invalidTime ∧
        ∃ facts, ⟨.facts r.caseId, .ok facts⟩ ∈ h ∧ ¬facts.Dated := by
  rcases returns_run.1 hr with ⟨e, he, rfl⟩ | ⟨facts, h', rfl, course⟩
  · cases he
    exact .inl (List.mem_singleton.2 rfl)
  · rcases course.error hc with ⟨h₁, asOf, e', -, rfl, rfl⟩ | ⟨x, hx, hw⟩ | ⟨c, lost, hn, hl⟩ |
      ⟨asked, hf, he⟩
    · exact .inr (.inl ⟨asOf, e', by simp, rfl⟩)
    · exact .inr (.inr (.inl ⟨x, List.mem_cons_of_mem _ hx, hw⟩))
    · exact .inr (.inr (.inr (.inl ⟨c, lost, List.mem_cons_of_mem _ hn, hl⟩)))
    · exact .inr (.inr (.inr (.inr ⟨asked, he, facts, by simp, hf⟩)))

/-- Reasoning resolves in every world unless a fact is the invalid instant, and then it fails before
it makes any call. So a check fails only when its sources or its writes do, when no version is in
force, when its date is invalid, or when it asks the model about facts that hold an invalid instant;
and about such facts no check that asks the model comes to a report. -/
theorem reasoning_resolution {s : EngineSettings} (hc : Configured s.retrieval s.reasoning) :
    (∀ i : AssessmentInput,
      (i.facts.Dated →
        (∀ h x, Returns (Reasoning.run s.retrieval s.reasoning i).run h x → ∃ y, x = .ok y) ∧
        ∀ (σ : Type) (env : Clock.Environment Call.interface σ)
          (w : Clock.World Call.interface σ),
          ∃ y, (Clock.World.run env (Reasoning.run s.retrieval s.reasoning i).run w).1 = .ok y) ∧
      (¬i.facts.Dated →
        (Reasoning.run s.retrieval s.reasoning i).run = done (.error .invalidTime))) ∧
    (∀ (r : CheckRequest) (h : History Call.interface),
      (∀ e, Returns (run s r) h (.error e) →
        ⟨.facts r.caseId, .error e⟩ ∈ h ∨
        (∃ asOf e', ⟨.ruleVersion r.visaTypeId asOf, .error e'⟩ ∈ h ∧ e = e'.reported) ∨
        (∃ x ∈ h, writeError? x ≠ none) ∨
        (∃ c lost, notice r.caseId c (.error lost) ∈ h ∧ lost.hasText = false) ∨
        asksModel s r = true ∧ e = .failure .invalidTime ∧
          ∃ facts, ⟨.facts r.caseId, .ok facts⟩ ∈ h ∧ ¬facts.Dated) ∧
      ∀ facts y, asksModel s r = true → ¬facts.Dated →
        ¬Returns (run s r) (⟨.facts r.caseId, .ok facts⟩ :: h) (.ok y)) ∧
    ∀ (l : RuleLookups) (visaTypeId : String) (asOf : Instant) (e : Raised),
      (l.findCached [] visaTypeId asOf).1 = .error e →
      l.source.fault = some e ∨ (asOf = .invalid ∧ e = .failure .invalidTime) ∨
        e = .failure (.noRuleVersion visaTypeId asOf) ∧
          ∀ v ∈ l.source.versions, v.visaTypeId = visaTypeId → v.isInForce asOf = false := by
  refine ⟨?_, ?_, ?_⟩
  · intro i
    refine ⟨fun hf => ⟨fun h x hr => Reasoning.resolves_of_dated hc hf hr, ?_⟩,
      Reasoning.run_of_not_dated⟩
    intro σ env w
    obtain ⟨h, hr⟩ := exists_returns_eval (Clock.World.answer env)
      (Reasoning.run s.retrieval s.reasoning i).run w
    exact Reasoning.resolves_of_dated hc hf hr
  · intro r h
    refine ⟨fun e hr => run_error hc hr, ?_⟩
    intro facts y asked hf hr
    rcases returns_run.1 hr with ⟨e, he, -⟩ | ⟨facts', h', hh, course⟩
    · cases he
    · cases hh
      exact hf (course.dated asked)
  · intro l visaTypeId asOf e he
    exact RuleLookups.findCached_error he

def undatedFacts : Facts := ⟨[("arrival_date", some (.date .invalid))]⟩

theorem undatedFacts_not_dated : ¬undatedFacts.Dated := fun hf => hf "arrival_date" (by decide)

theorem empty_dated : Facts.empty.Dated := by
  intro name
  simp [Facts.empty, Facts.get?]

theorem configured_default : Configured {} {} := ⟨⟨_, rfl⟩, ⟨_, rfl⟩, ⟨_, rfl⟩⟩

/-- Reasoning about no facts and about an invalid instant, a check that asks the model about the
latter, and a lookup where there is nothing to find. -/
theorem reasoning_resolution_undated :
    (∀ h x, Returns (Reasoning.run {} {} ⟨.empty, default, "F-1", none⟩).run h x →
      ∃ y, x = .ok y) ∧
    (Reasoning.run {} {} ⟨undatedFacts, default, "F-1", none⟩).run = done (.error .invalidTime) ∧
    (∀ h y, ¬Returns (run {} { bareRequest with enableAi := none })
      (⟨.facts "case-1", .ok undatedFacts⟩ :: h) (.ok y)) ∧
    ∃ e, (RuleLookups.findCached {} [] "visa-1" (.ofMillis 0)).1 = .error e ∧
      e = .failure (.noRuleVersion "visa-1" (.ofMillis 0)) := by
  have configured : Configured ({} : EngineSettings).retrieval ({} : EngineSettings).reasoning :=
    configured_default
  obtain ⟨reasoning, checks, lookups⟩ := reasoning_resolution configured
  refine ⟨?_, ?_, ?_, ?_⟩
  · exact ((reasoning ⟨.empty, default, "F-1", none⟩).1 empty_dated).1
  · exact (reasoning ⟨undatedFacts, default, "F-1", none⟩).2 undatedFacts_not_dated
  · intro h y
    exact (checks { bareRequest with enableAi := none } h).2 undatedFacts y rfl
      undatedFacts_not_dated
  · have he : (RuleLookups.findCached {} [] "visa-1" (.ofMillis 0)).1 =
        .error (.failure (.noRuleVersion "visa-1" (.ofMillis 0))) := rfl
    rcases lookups {} "visa-1" (.ofMillis 0) _ he with hf | ⟨ha, -⟩ | ⟨hn, -⟩
    · cases hf
    · cases ha
    · exact ⟨_, he, hn⟩

/-- Reasoning may fail, and with it a check whose sources and writes do not. -/
theorem fails_for_undated_facts :
    (Reasoning.run {} {} ⟨undatedFacts, default, "F-1", none⟩).run = done (.error .invalidTime) ∧
    Returns (run {} { bareRequest with enableAi := none })
      [⟨.facts "case-1", .ok undatedFacts⟩, ⟨.now, .ofMillis 0⟩,
        ⟨.ruleVersion "visa-1" (.ofMillis 0), .ok default⟩, failureCount]
      (.error (.failure .invalidTime)) := by
  refine ⟨Reasoning.run_of_not_dated undatedFacts_not_dated, ?_⟩
  have decided : Returns (decision {} { bareRequest with enableAi := none } undatedFacts
      (.ofMillis 0)).run [⟨.ruleVersion "visa-1" (.ofMillis 0), .ok default⟩]
      (.error (.failure .invalidTime)) := by
    refine Attempt.returns_bind.2 (.inr ⟨[_], default, [], rfl, returns_perform.2 rfl, ?_⟩)
    exact Attempt.returns_bind.2
      (.inl ⟨_, rfl, askModel_of_not_dated rfl undatedFacts_not_dated⟩)
  have dated : Returns (evaluationDate { bareRequest with enableAi := none })
      [⟨.now, .ofMillis 0⟩] (.ofMillis 0) := returns_perform.2 rfl
  exact returns_run.2 (.inr ⟨undatedFacts, _, rfl, .undecided dated decided⟩)

end Check
end VisaEligibility
