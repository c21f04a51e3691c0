import VisaEligibility.Proofs.Check.ContextCap
import VisaEligibility.Proofs.Check.Decisions
import VisaEligibility.Proofs.Response.Shares
/-!
The confidence of results. It lies between 0 and 1 and is that of the rules, or one that the answer
of the model states in a marker, under the cap; in a conflict it is the smaller of the two.
-/
set_option autoImplicit false

namespace VisaEligibility

open Program

theorem Response.inUnitInterval_iff {x : Number} :
    inUnitInterval x = true ↔ Number.le 0 x = true ∧ x.le 1 = true :=
  Bool.and_eq_true_iff

theorem Response.ne_nan_of_inUnitInterval {x : Number} (hx : inUnitInterval x = true) :
    x ≠ .nan :=
  (Number.le_iff.1 (inUnitInterval_iff.1 hx).1).2.1

namespace RuleEvaluation

open Response

theorem inUnitInterval_share {passed total : Nat} (h : passed ≤ total) :
    inUnitInterval (share passed total) = true := by
  have zero : Number.nearest 0 = 0 := by decide +kernel
  have one : Number.nearest 1 = 1 := by decide +kernel
  unfold share
  split
  · decide
  · rename_i some
    have quotient : mkRat passed total = (passed : Rat) / total := by
      rw [Rat.mkRat_eq_div, Int.cast_natCast]
    have nonneg : (0 : Rat) ≤ (passed : Rat) / total := by positivity
    have most : (passed : Rat) / total ≤ 1 :=
      div_le_one_of_le₀ (by exact_mod_cast h) (by positivity)
    rw [quotient, inUnitInterval_iff]
    have low := Number.nearest_mono le_rfl nonneg
    have high := Number.nearest_mono nonneg most
    rw [zero] at low
    rw [one] at high
    exact ⟨low, high⟩

end RuleEvaluation

namespace RuleVersion

variable (v : RuleVersion) (facts : Facts) (t : Thresholds)

theorem inUnitInterval_confidence :
    Response.inUnitInterval (v.evaluate facts t).confidence = true :=
  RuleEvaluation.inUnitInterval_share (List.length_filter_le _ _)

theorem confidence_eq : (v.evaluate facts t).confidence =
    if (v.evaluate facts t).total = 0 then 0
    else .nearest ((v.evaluate facts t).passed / (v.evaluate facts t).total) := by
  have share : (v.evaluate facts t).confidence =
      RuleEvaluation.share (v.evaluate facts t).passed (v.evaluate facts t).total := rfl
  rw [share, RuleEvaluation.share, Rat.mkRat_eq_div, Int.cast_natCast]

end RuleVersion

namespace Reasoning

open Response

def trusted (cap : Number) (chunks : List Chunk) (own : Number) : Number :=
  if chunks.isEmpty then underCap cap own else own

theorem verdict_ofAnswer_trusted (cap : Number) (chunks : List Chunk) (p : Prompt)
    (a : ModelAnswer) : (ofAnswer cap chunks p a).verdict =
      ⟨conclusion a.text, (confidence a.text).map (trusted cap chunks)⟩ := by
  cases chunks with
  | nil => exact verdict_ofAnswer cap p a
  | cons chunk chunks =>
    have same : (trusted cap (chunk :: chunks)) = id := rfl
    rw [same, Option.map_id]
    rfl

theorem inUnitInterval_trusted {cap own : Number} (chunks : List Chunk)
    (hc : inUnitInterval cap = true) (ho : inUnitInterval own = true) :
    inUnitInterval (trusted cap chunks own) = true := by
  unfold trusted underCap
  split
  · split
    · exact hc
    · exact ho
  · exact ho

/-- A confidence that the last confidence marker of a text states: a decimal numeral or a percentage
for a part of one, up to the rounding of numbers, that is in range as it is read. -/
def Stated (text : String) (own : Number) : Prop :=
  ∃ share q, last? confidenceMarker? text = some share ∧ Shares text.toList share ∧
    Denotes share q ∧ -margin ≤ q ∧ q ≤ 1 + margin ∧ own = share.value ∧ inUnitInterval own = true

theorem confidence_eq_some_iff {text : String} {own : Number} :
    confidence text = some own ↔ Stated text own := by
  constructor
  · intro read
    obtain ⟨share, q, last, written, denoted, same, low, high⟩ := confidence_eq_some read
    exact ⟨share, q, last, written, denoted, low, high, same, (Option.filter_eq_some_iff.1 read).2⟩
  · rintro ⟨share, q, last, -, -, -, -, rfl, within⟩
    exact Option.filter_eq_some_iff.2 ⟨by rw [last]; rfl, within⟩

end Reasoning

namespace Check

open Response Reasoning

variable {s : EngineSettings} {r : CheckRequest} {facts : Facts} {h : History Call.interface}
  {x : Except Raised CheckReport}

/-- Where the confidence of a result comes from, given what the check has found and been answered:
the rules where no answer concludes with a confidence; the confidence of the answer under the cap;
in a conflict the smaller of both. -/
inductive Origin (s : EngineSettings) (rule : RuleEvaluation) (h : History Call.interface) :
    Bool → Number → Prop where
  | rules {conflict : Bool} (unstated : ∀ a ∈ answers h,
      conclusion a.text = none ∨ confidence a.text = none) :
      Origin s rule h conflict rule.confidence
  | answer {a : ModelAnswer} {found : List Chunk} {own : Number} (given : answers h = [a])
      (searched : findings h = [found]) (concluded : conclusion a.text ≠ none)
      (stated : Stated a.text own) :
      Origin s rule h false (trusted s.reasoning.noContextConfidenceCap
        (Chunk.rank found s.retrieval.topK s.retrieval.minSimilarity) own)
  | smaller {a : ModelAnswer} {found : List Chunk} {own trust least : Number}
      (given : answers h = [a]) (searched : findings h = [found])
      (concluded : conclusion a.text ≠ none) (stated : Stated a.text own)
      (capped : trust = trusted s.reasoning.noContextConfidenceCap
        (Chunk.rank found s.retrieval.topK s.retrieval.minSimilarity) own)
      (one : least = rule.confidence ∨ least = trust)
      (below : least.le rule.confidence = true ∧ least.le trust = true) :
      Origin s rule h true least

namespace Origin

variable {rule : RuleEvaluation} {conflict : Bool} {confidence : Number}

theorem congr {h' : History Call.interface} (ho : Origin s rule h conflict confidence)
    (same : answers h' = answers h) (same' : findings h' = findings h) :
    Origin s rule h' conflict confidence := by
  cases ho with
  | rules unstated => exact .rules (same ▸ unstated)
  | answer given searched concluded stated =>
    exact .answer (same.trans given) (same'.trans searched) concluded stated
  | smaller given searched concluded stated trust one below =>
    exact .smaller (same.trans given) (same'.trans searched) concluded stated trust one below

theorem inUnitInterval (ho : Origin s rule h conflict confidence)
    (ruled : Response.inUnitInterval rule.confidence = true)
    (capped : Response.inUnitInterval s.reasoning.noContextConfidenceCap = true) :
    Response.inUnitInterval confidence = true := by
  have trusted {found : List Chunk} {own : Number} {text : String} (stated : Stated text own) :
      Response.inUnitInterval (trusted s.reasoning.noContextConfidenceCap
        (Chunk.rank found s.retrieval.topK s.retrieval.minSimilarity) own) = true := by
    obtain ⟨-, -, -, -, -, -, -, -, within⟩ := stated
    exact inUnitInterval_trusted _ capped within
  cases ho with
  | rules unstated => exact ruled
  | answer given searched concluded stated => exact trusted stated
  | smaller given searched concluded stated same one below =>
    rcases one with rfl | rfl
    · exact ruled
    · exact same ▸ trusted stated

end Origin

theorem Decides.origin {d : Decision} (hd : Decides s r facts h d)
    (capped : inUnitInterval s.reasoning.noContextConfidenceCap = true) :
    Origin s d.rule h (d.combined s).conflict (d.combined s).confidence := by
  obtain ⟨v, -, ruled⟩ := hd.version
  have known : d.rule.confidence ≠ .nan := ruled ▸ v.confidence_ne_nan facts s.thresholds
  unfold Decision.combined AiPart.verdict
  cases completed : d.ai.completed with
  | none => exact .rules (by simp [hd.lost completed])
  | some c =>
    have prompted := hd.prompted c completed
    obtain ⟨-, -, found, -, searched, ranked⟩ := prompted.searched
    have given := prompted.answered
    rw [Option.map_some, congrArg Assessment.verdict prompted.read, verdict_ofAnswer_trusted,
      ranked]
    cases concluded : conclusion c.answer.text with
    | none => exact .rules (by simp [given, concluded])
    | some k =>
      cases read : confidence c.answer.text with
      | none =>
        rw [Option.map_none, CombinedVerdict.confidence_of_unstated]
        exact .rules (by simp [given, read])
      | some own =>
        have stated := confidence_eq_some_iff.1 read
        have some : conclusion c.answer.text ≠ none := by simp [concluded]
        have trust := ne_nan_of_inUnitInterval
          (inUnitInterval_trusted c.chunks capped (Option.filter_eq_some_iff.1 read).2)
        rw [ranked] at trust
        rw [Option.map_some]
        simp only [CombinedVerdict.combine, CombinedVerdict.merge, CombinedVerdict.mergeKnown,
          Option.getD_some]
        split
        · exact .smaller given searched some stated rfl (Number.least_eq known trust)
            (Number.least_le known trust)
        · exact .answer given searched some stated

theorem mem_triedResults_of_stored {y : EligibilityResult} (hy : y ∈ storedResults h) :
    y ∈ triedResults h :=
  List.mem_filterMap.2 ⟨_, mem_storedResults.1 hy, rfl⟩

theorem Course.confidence (course : Course s r facts h x) {y : EligibilityResult}
    (hy : y ∈ storedResults h)
    (capped : inUnitInterval s.reasoning.noContextConfidenceCap = true) :
    ∃ v, readVersions h = [v] ∧
      Origin s (v.evaluate facts s.thresholds) h y.conflictDetected y.confidence := by
  have tried := mem_triedResults_of_stored hy
  rcases course.decides with quiet | ⟨d, h', z, decides, storing, same, -, -⟩
  · simp [triedResults_of_quiet quiet] at tried
  · rw [same] at tried
    obtain ⟨log, id, time, rfl⟩ := storing.follows.results y tried
    obtain ⟨v, read, ruled⟩ := decides.version
    exact ⟨v, read, ruled ▸ decides.origin capped⟩

/-- With a cap between 0 and 1 the confidence of a stored result lies between 0 and 1, and has its
origin in the share of requirements passed, in what the answer states, or in both in a conflict. An
answer states a confidence only by a decimal or a percentage in its last marker that is in range. -/
theorem confidence_of_results (s : EngineSettings) (r : CheckRequest)
    (capped : inUnitInterval s.reasoning.noContextConfidenceCap = true) :
    (∀ text own, confidence text = some own ↔ Stated text own) ∧
    ∀ h x, Returns (run s r) h x → ∀ y ∈ storedResults h,
      inUnitInterval y.confidence = true ∧ y.confidence ≠ .nan ∧
      ∃ facts v, ⟨.facts r.caseId, .ok facts⟩ ∈ h ∧ readVersions h = [v] ∧
        (v.evaluate facts s.thresholds).confidence =
          (if (v.evaluate facts s.thresholds).total = 0 then 0
          else .nearest ((v.evaluate facts s.thresholds).passed /
            (v.evaluate facts s.thresholds).total)) ∧
        Origin s (v.evaluate facts s.thresholds) h y.conflictDetected y.confidence := by
  refine ⟨fun _ _ => confidence_eq_some_iff, fun h x hr y hy => ?_⟩
  rcases returns_run.1 hr with ⟨e, -, rfl⟩ | ⟨facts, h', rfl, course⟩
  · cases hy
  obtain ⟨v, read, origin⟩ := course.confidence hy capped
  have within := origin.inUnitInterval (v.inUnitInterval_confidence facts s.thresholds) capped
  exact ⟨within, ne_nan_of_inUnitInterval within, facts, v, List.mem_cons_self, read,
    v.confidence_eq facts s.thresholds, origin.congr rfl rfl⟩

def percentRun : History Call.interface × Except Raised CheckReport :=
  trace (answeringWorld default "OUTCOME: not_eligible\nCONFIDENCE: 90 %")
    (run vagueSettings { bareRequest with enableAi := none })

/-- A confidence of 90 % stated without context is stored as the cap. -/
theorem confidence_of_results_percent :
    ∃ y ∈ storedResults percentRun.1, inUnitInterval y.confidence = true ∧
      ∃ a, answers percentRun.1 = [a] ∧ Stated a.text (.nearest (9 / 10)) ∧
        y.confidence = trusted (.nearest (5 / 10)) [] (.nearest (9 / 10)) := by
  have hr : Returns (run vagueSettings { bareRequest with enableAi := none }) percentRun.1
      percentRun.2 := returns_trace (I := Call.interface) _ _
  have capped : inUnitInterval vagueSettings.reasoning.noContextConfidenceCap = true := by
    decide +kernel
  have stored : (storedResults percentRun.1).map (·.conflictDetected) = [false] := by
    decide +kernel
  have answered : (answers percentRun.1).map (fun a =>
      ((conclusion a.text).isSome, confidence a.text)) = [(true, some (.nearest (9 / 10)))] := by
    decide +kernel
  have bare : ∀ found ∈ findings percentRun.1, found = [] := by decide +kernel
  obtain ⟨y, one, calm⟩ := List.map_eq_singleton_iff.1 stored
  obtain ⟨a, given, known⟩ := List.map_eq_singleton_iff.1 answered
  obtain ⟨concluded, read⟩ := Prod.mk.inj known
  obtain ⟨stated, results⟩ := confidence_of_results _ _ capped
  have hy : y ∈ storedResults percentRun.1 := by simp [one]
  obtain ⟨within, -, facts, v, -, -, -, origin⟩ := results _ _ hr y hy
  refine ⟨y, hy, within, a, given, (stated _ _).1 read, ?_⟩
  rw [calm] at origin
  generalize y.confidence = own at origin
  cases origin with
  | rules unstated =>
    rcases unstated a (by simp [given]) with none | none
    · simp [none] at concluded
    · cases none.symm.trans read
  | @answer a' found own' given' searched concluded' stated' =>
    cases given.symm.trans given'
    obtain rfl := bare found (by simp [searched])
    cases read.symm.trans ((stated _ _).2 stated')
    rfl

end Check
end VisaEligibility
