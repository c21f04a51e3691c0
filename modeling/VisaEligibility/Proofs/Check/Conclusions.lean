import VisaEligibility.Proofs.Check.LostAnswers
import VisaEligibility.Proofs.Response.Labels
/-!
What the results of checks conclude. An outcome of the model comes from a listed label of its
answer; a result that has no outcome repeats a reserved label of the answer.
-/
set_option autoImplicit false

namespace VisaEligibility

open Program

/-- What is merged into a reserved label is that label, since it conflicts with no outcome. -/
theorem CombinedVerdict.merge_eq_reserved {rule : RuleVerdict} {ai : Option AiVerdict}
    {l : ReservedLabel} (hm : (merge rule ai).conclusion = .reserved l) :
    ∃ v, ai = some v ∧ v.conclusion = some (.reserved l) := by
  match ai with
  | none => cases hm
  | some ⟨none, confidence⟩ => cases hm
  | some ⟨some c, confidence⟩ =>
    refine ⟨_, rfl, ?_⟩
    simp only [merge, mergeKnown] at hm
    split at hm
    · cases hm
    · exact congrArg some hm

namespace Check

open Response

variable {s : EngineSettings} {r : CheckRequest} {facts : Facts} {h : History Call.interface}
  {x : Except Raised CheckReport}

theorem Performed.conclusion_of_reserved {d : Decision} (performed : Performed s r facts h x d)
    {l : ReservedLabel} (hl : (d.combined s).conclusion = .reserved l) :
    ∃ a, answers h = [a] ∧ conclusion a.text = some (.reserved l) := by
  obtain ⟨v, hv, concluded⟩ := CombinedVerdict.merge_eq_reserved hl
  obtain ⟨c, completed, rfl⟩ := Option.map_eq_some_iff.1 hv
  obtain ⟨answered, read⟩ := performed.answered c completed
  exact ⟨c.answer, answered, read.symm.trans concluded⟩

/-- An answer is read as an outcome exactly by a listed label of its last marker. What else is read
is one of the reserved labels, and only they can stand in place of the outcome of a result. -/
theorem outcome_only_by_label (text : String) :
    (∀ o, conclusion text = some (.outcome o) ↔
      ∃ label, last? outcomeMarker? text = some label ∧ IsListed o label) ∧
    (∀ l, conclusion text = some (.reserved l) ↔
      ∃ label, last? outcomeMarker? text = some label ∧ l.label ∈ spellings label) ∧
    (∀ label, last? outcomeMarker? text = some label → Labels text.toList label) ∧
    ∀ s r facts h x, Returns (overFacts s r facts) h x → ∀ y ∈ triedResults h,
      (∃ o, y.conclusion = .outcome o) ∨
        ∃ l a label, y.conclusion = .reserved l ∧ answers h = [a] ∧
          last? outcomeMarker? a.text = some label ∧ l.label ∈ spellings label := by
  refine ⟨fun _ => conclusion_eq_outcome, fun _ => conclusion_eq_reserved,
    fun _ => labels_of_last?, fun s r facts h x hr y hy => ?_⟩
  rcases (returns_overFacts.1 hr).performed with ⟨untried, -⟩ | ⟨d, performed⟩
  · simp [untried] at hy
  obtain ⟨log, id, time, rfl⟩ := performed.results y hy
  cases hc : (d.combined s).conclusion with
  | outcome o => exact .inl ⟨o, hc⟩
  | reserved l =>
    obtain ⟨a, answered, read⟩ := performed.conclusion_of_reserved hc
    obtain ⟨label, last, spelt⟩ := conclusion_eq_reserved.1 read
    exact .inr ⟨l, a, label, hc, answered, last, spelt⟩

def answeringWorld (v : RuleVersion) (text : String) : (c : Call) → Call.Reply c
  | .embedding _ _ => .ok [1]
  | .completion _ _ _ => .ok ⟨text, "mock-model", none⟩
  | c => bareWorld v (.ok ()) (.ok ()) c

def constructorText : String := "OUTCOME: constructor"

def constructorRun : History Call.interface × Except Raised CheckReport :=
  trace (answeringWorld default constructorText)
    (overFacts vagueSettings { bareRequest with enableAi := none } .empty)

theorem outcome_only_by_label_reserved :
    ∃ y ∈ triedResults constructorRun.1, ∃ a label, answers constructorRun.1 = [a] ∧
      y.conclusion = .reserved .ofObjects ∧ last? outcomeMarker? a.text = some label ∧
      "constructor" ∈ spellings label := by
  have hr := returns_trace (I := Call.interface) (answeringWorld default constructorText)
    (overFacts vagueSettings { bareRequest with enableAi := none } .empty)
  have concluded : (triedResults constructorRun.1).map (·.conclusion) = [.reserved .ofObjects] := by
    decide +kernel
  obtain ⟨y, tried, hy⟩ := List.map_eq_singleton_iff.1 concluded
  have hm : y ∈ triedResults constructorRun.1 := by simp [tried]
  refine ⟨y, hm, ?_⟩
  rcases (outcome_only_by_label constructorText).2.2.2 _ _ _ _ _ hr y hm with
    ⟨o, ho⟩ | ⟨l, a, label, hl, rest⟩
  · cases hy.symm.trans ho
  · cases hy.symm.trans hl
    exact ⟨a, label, rest.1, hy, rest.2⟩

/-- An answer that is not unknown although its label is not listed, and a check that reports and
stores no outcome for it. -/
theorem answered_by_unlisted_label :
    conclusion constructorText ≠ none ∧
      (¬∃ o label, last? outcomeMarker? constructorText = some label ∧ IsListed o label) ∧
      ∃ y ∈ storedResults constructorRun.1, ∀ o, y.conclusion ≠ .outcome o := by
  have label : last? outcomeMarker? constructorText = some "constructor".toList := by decide +kernel
  have unlisted (o : Outcome) : ¬IsListed o "constructor".toList := by
    unfold IsListed
    cases o <;> decide
  have stored : (storedResults constructorRun.1).map (·.conclusion) = [.reserved .ofObjects] := by
    decide +kernel
  obtain ⟨y, hy, concluded⟩ := List.map_eq_singleton_iff.1 stored
  refine ⟨by decide +kernel, ?_, y, by simp [hy], fun o ho => ?_⟩
  · rintro ⟨o, label', last, listed⟩
    cases label.symm.trans last
    exact unlisted o listed
  · cases concluded.symm.trans ho

end Check
end VisaEligibility
