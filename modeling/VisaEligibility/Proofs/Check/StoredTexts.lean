import VisaEligibility.Proofs.Check.CitedContext
import VisaEligibility.Proofs.Check.ContextCap
import VisaEligibility.Proofs.Verdict.Cutting
/-!
The texts that a check stores. Excerpts are cut between characters. A summary is broken exactly if it
repeats the explanation of an answer that is cut within a pair of surrogates.
-/
set_option autoImplicit false

namespace VisaEligibility

open Program
open Text (Units)

theorem CombinedVerdict.aiUsed_combine {rule : RuleVerdict} {ai : Option AiVerdict}
    {t : Thresholds} :
    (combine rule ai t).aiUsed = true ↔ ∃ v, ai = some v ∧ v.conclusion ≠ none := by
  match ai with
  | none => exact iff_of_false Bool.false_ne_true (by simp)
  | some ⟨none, confidence⟩ => exact iff_of_false Bool.false_ne_true (by simp)
  | some ⟨some c, confidence⟩ => exact iff_of_true (merge_known rule c confidence).1 (by simp)

theorem Reasoning.conclusion_ofAnswer (cap : Number) (chunks : List Chunk) (p : Prompt)
    (a : ModelAnswer) :
    (ofAnswer cap chunks p a).verdict.conclusion = Response.conclusion a.text := by
  unfold ofAnswer
  dsimp only
  split <;> rfl

namespace Check

variable {s : EngineSettings} {r : CheckRequest} {facts : Facts} {h : History Call.interface}
  {x : Except Raised CheckReport}

structure ExcerptOf (excerpt text : String) : Prop where
  characters : excerpt.toList = text.toList.take 500
  start : (Units.ofString excerpt).units <+: (Units.ofString text).units
  wellFormed : (Units.ofString excerpt).wellFormed = true

theorem excerptOf_text (c : Chunk) : ExcerptOf (Response.excerptOf c).text c.text := by
  have characters : (Response.excerptOf c).text.toList = c.text.toList.take 500 :=
    String.toList_ofList
  refine ⟨characters, ?_, Units.wellFormed_ofString _⟩
  rw [Units.ofString, characters, Units.ofString]
  exact (List.take_prefix 500 c.text.toList).flatMap _

theorem Storing.excerpts {d : Decision} {z : Except Raised Stored} {h' : History Call.interface}
    (decides : Decides s r facts h d) (storing : Storing s r d h' z) :
    ∀ x ∈ storedCitations h', ∃ found ∈ findings h, ∃ c ∈ found,
      ExcerptOf x.excerpt.text c.text := by
  intro x hx
  rcases storing.cited with none | ⟨c, id, time, completed, -, stored⟩
  · rw [none] at hx
    cases hx
  have prompted := decides.prompted c completed
  obtain ⟨-, -, found, -, only, ranked⟩ := prompted.searched
  have same : c.excerpts = Response.excerpts c.answer.text c.chunks :=
    congrArg Assessment.excerpts prompted.read
  rw [stored, same] at hx
  obtain ⟨e, he, rfl⟩ := List.mem_map.1 hx
  obtain ⟨n, -, hn⟩ := List.mem_filterMap.1 he
  obtain ⟨chunk, place, rfl⟩ := Option.map_eq_some_iff.1 hn
  have shown := List.mem_of_getElem? place
  rw [ranked] at shown
  exact ⟨found, by simp [only], chunk, (Chunk.of_mem_rank shown).1, excerptOf_text chunk⟩

/-- The summary of a result beside the answers of its check. It starts with the explanation of an
answer that it uses and that is not empty, and is broken exactly if such an explanation is. -/
structure Explains (answers : List ModelAnswer) (y : EligibilityResult) : Prop where
  starts : ∀ a ∈ answers, y.conflictDetected = false → Response.conclusion a.text ≠ none →
    Summary.body a.text ≠ [] →
      ∃ notes, y.summary = Summary.withNotes (Summary.explanation a.text) notes
  broken : y.summary.wellFormed = false ↔ y.conflictDetected = false ∧
    ∃ a ∈ answers, Response.conclusion a.text ≠ none ∧ Summary.cutsPair a.text = true

theorem Decides.explains {d : Decision} (decides : Decides s r facts h d)
    (log : Option ReasoningLog) (id : String) (time : Instant) :
    Explains (answers h) (d.result s r log id time) := by
  have whole : (d.result s r log id time).summary = Summary.withNotes
      (Summary.opening d.rule.findings (d.combined s) d.ai.answer)
      (Summary.aiNote (d.combined s) d.ai.answer d.ai.failure ++
        Summary.missingNote d.rule.findings.missingFacts ++
        Summary.thresholdNote (d.combined s) s.thresholds) := rfl
  have wellFormed : (d.result s r log id time).summary.wellFormed = true ↔
      ∀ a, d.ai.answer = some a → (d.combined s).conflict = false →
        (d.combined s).aiUsed = true → Summary.cutsPair a.text = false := by
    rw [whole, Summary.wellFormed_withNotes, Summary.wellFormed_opening]
  cases completed : d.ai.completed with
  | none =>
    have unanswered : d.ai.answer = none := by rw [AiPart.answer, completed, Option.map_none]
    rw [decides.lost completed]
    rw [unanswered] at wellFormed
    have unbroken := wellFormed.2 (by simp)
    exact ⟨by simp, by simp [unbroken]⟩
  | some c =>
    have prompted := decides.prompted c completed
    have answered : d.ai.answer = some ⟨c.verdict.conclusion, c.answer.text⟩ := by
      rw [AiPart.answer, completed, Option.map_some]
    have concluded : c.verdict.conclusion = Response.conclusion c.answer.text :=
      (congrArg (fun c => c.verdict.conclusion) prompted.read).trans
        (Reasoning.conclusion_ofAnswer ..)
    have used : (d.combined s).aiUsed = true ↔ Response.conclusion c.answer.text ≠ none := by
      rw [← concluded, Decision.combined, CombinedVerdict.aiUsed_combine, AiPart.verdict, completed]
      simp
    rw [prompted.answered]
    rw [answered] at whole wellFormed
    have conflict : (d.result s r log id time).conflictDetected = (d.combined s).conflict := rfl
    refine ⟨fun a ha agrees known worded => ?_, ?_⟩
    · obtain rfl := List.mem_singleton.1 ha
      rw [conflict] at agrees
      rw [whole, Summary.opening_of_used _ _ (a := ⟨c.verdict.conclusion, c.answer.text⟩) agrees
        (used.2 known) worded]
      exact ⟨_, rfl⟩
    · rw [← Bool.not_eq_true, wellFormed]
      simp [conflict, used]

theorem Course.explains (course : Course s r facts h x) :
    ∀ y ∈ triedResults h, Explains (answers h) y := by
  intro y hy
  rcases course.decides with quiet | ⟨d, h', z, decides, storing, results, -, -⟩
  · rw [(unstored_of_quiet quiet).1] at hy
    cases hy
  rw [results] at hy
  obtain ⟨log, id, time, rfl⟩ := storing.follows.results y hy
  exact decides.explains log id time

theorem Course.excerpts (course : Course s r facts h x) :
    ∀ x ∈ storedCitations h, ∃ found ∈ findings h, ∃ c ∈ found,
      ExcerptOf x.excerpt.text c.text := by
  intro x hx
  rcases course.decides with quiet | ⟨d, h', z, decides, storing, -, -, citations⟩
  · rw [(unstored_of_quiet quiet).2.2] at hx
    cases hx
  · exact storing.excerpts decides x (citations ▸ hx)

/-- What a check stores is unbroken but for a summary that starts with an explanation cut within a
pair. An explanation keeps its length, is whole unless it is too long, and is broken exactly if it is
cut so. -/
theorem stored_texts_unbroken (hr : Returns (run s r) h x) :
    (∀ y ∈ triedResults h, Explains (answers h) y) ∧
    (∀ x ∈ storedCitations h, ∃ found ∈ findings h, ∃ c ∈ found,
      ExcerptOf x.excerpt.text c.text) ∧
    ∀ response, (Summary.explanation response).length ≤ 500 ∧
      ((Units.ofList (Summary.body response)).length ≤ 500 →
        Summary.explanation response = Units.ofList (Summary.body response)) ∧
      ((Summary.explanation response).wellFormed = false ↔ Summary.cutsPair response = true) := by
  refine ⟨?_, ?_, fun text =>
    ⟨Summary.length_explanation text, Summary.explanation_of_short text, ?_⟩⟩
  · rcases returns_run.1 hr with ⟨e, -, rfl⟩ | ⟨facts, h', rfl, course⟩
    · simp [triedResults, triedResult?]
    · exact course.explains
  · rcases returns_run.1 hr with ⟨e, -, rfl⟩ | ⟨facts, h', rfl, course⟩
    · simp [storedCitations, citationsOf]
    · exact course.excerpts
  · rw [Summary.wellFormed_explanation, Bool.not_eq_false']

/-- The check of the citing world stores a summary and two excerpts, all of them unbroken. -/
theorem stored_texts_unbroken_citing :
    (∃ y ∈ triedResults citingRun.1, y.summary.wellFormed = true) ∧
      (storedCitations citingRun.1).length = 2 ∧ ∀ x ∈ storedCitations citingRun.1,
        ∃ found ∈ findings citingRun.1, ∃ c ∈ found, ExcerptOf x.excerpt.text c.text := by
  have hr : Returns (run vagueSettings { bareRequest with enableAi := none }) citingRun.1
      citingRun.2 := returns_trace (I := Call.interface) _ _
  obtain ⟨explains, excerpts, -⟩ := stored_texts_unbroken hr
  have tried : (triedResults citingRun.1).length = 1 := by decide +kernel
  have uncut : ∀ a ∈ answers citingRun.1, Summary.cutsPair a.text = false := by decide +kernel
  obtain ⟨y, hy⟩ := List.length_eq_one_iff.1 tried
  have given : y ∈ triedResults citingRun.1 := by simp [hy]
  refine ⟨⟨y, given, ?_⟩, by decide +kernel, excerpts⟩
  rw [← Bool.not_eq_false, (explains y given).broken]
  rintro ⟨-, a, ha, -, cut⟩
  rw [uncut a ha] at cut
  cases cut

def pages (count : Nat) : List Char := List.replicate count '📄'

def pagesAnswer : String :=
  String.ofList (pages 300 ++ "\nOUTCOME: eligible\nCONFIDENCE: 0.9".toList)

/-- The summary of an answer that is used and agrees with the rules is cut after the first unit of a
pair. -/
theorem summary_splits_pair :
    (Summary.explanation pagesAnswer).units =
        (pages 248).flatMap Text.unitsOf ++ [0xD83D, 0x2E, 0x2E, 0x2E] ∧
      (Summary.ofVerdict default ⟨.outcome .eligible, 1, false, true, [], false⟩
        (some ⟨some (.outcome .eligible), pagesAnswer⟩) none).wellFormed = false := by
  have cut : Summary.cutsPair pagesAnswer = true := by
    rw [Summary.cutsPair, Summary.body, pagesAnswer, String.toList_ofList]
    decide +kernel
  refine ⟨?_, ?_⟩
  · rw [Summary.explanation, Summary.body, pagesAnswer, String.toList_ofList]
    decide +kernel
  · rw [Summary.ofVerdict_eq, Summary.wellFormed_withNotes, ← Bool.not_eq_true,
      Summary.wellFormed_opening]
    intro unbroken
    rw [unbroken _ rfl rfl rfl] at cut
    cases cut

end Check
end VisaEligibility
