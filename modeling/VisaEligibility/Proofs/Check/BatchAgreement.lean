import VisaEligibility.Proofs.Check.BatchReport
import VisaEligibility.Proofs.Check.Likeness
import VisaEligibility.Proofs.Check.References
import VisaEligibility.Proofs.Check.SharedLookups
/-!
Batches and single checks. The checks of a batch share the facts and the lookups of a run and
otherwise nothing: each comes to what a single check would come to, and the report of the batch has
one entry for each, in their order.
-/
set_option autoImplicit false

namespace VisaEligibility

open Program

/-- What answers the calls of checks: sources, services and stores that go by their arguments. -/
structure Backing where
  facts : String → Except Raised Facts
  versions : VersionSource
  embedding : String → Option Number → Except Raised (List Number)
  search : List Number → ChunkFilters → Number → Number → Option Number → Except Raised (List Chunk)
  completion : List Message → ModelOptions → Option Number → Except Raised ModelAnswer
  saveLog : ReasoningLog → Except Raised Unit
  saveCitations : List Citation → Except Raised Unit
  saveResult : EligibilityResult → Except Raised Unit
  requestReview : String → String → Except Raised Unit
  markEvaluated : String → Except Raised Unit

namespace Backing

/-- The replies at a time, with the next id. -/
def answer (b : Backing) (time : Instant) (id : String) : (c : Call) → Call.Reply c
  | .now => time
  | .newId => id
  | .facts caseId => b.facts caseId
  | .ruleVersion visaTypeId asOf => b.versions.lookupDated visaTypeId asOf
  | .embedding text limit => b.embedding text limit
  | .search vector filters topK minSimilarity limit =>
    b.search vector filters topK minSimilarity limit
  | .completion messages options limit => b.completion messages options limit
  | .pause _ => ()
  | .count _ => ()
  | .saveLog l => b.saveLog l
  | .saveCitations cs => b.saveCitations cs
  | .saveResult x => b.saveResult x
  | .requestReview caseId reason => b.requestReview caseId reason
  | .markEvaluated caseId => b.markEvaluated caseId

def Answers (b : Backing) (x : Exchange Call.interface) : Prop :=
  ∃ time id, x.reply = b.answer time id x.call

/-- The stores do not look at generated ids and times. -/
structure Blind (b : Backing) : Prop where
  saveLog : ∀ l l', l.unstamped = l'.unstamped → b.saveLog l = b.saveLog l'
  saveCitations : ∀ cs cs', cs.map Citation.unstamped = cs'.map Citation.unstamped →
    b.saveCitations cs = b.saveCitations cs'
  saveResult : ∀ x x', x.unstamped = x'.unstamped → b.saveResult x = b.saveResult x'

theorem Blind.answeredAlike {b : Backing} (blind : b.Blind) (time time' : Instant)
    (id id' : String) : AnsweredAlike Eq (b.answer time id) (b.answer time' id') where
  remote c hc := by cases c <;> first | rfl | cases hc
  facts _ := .refl _
  ruleVersion _ _ := .refl _
  saveLog l l' same := by
    simp only [answer, blind.saveLog l l' same]
    exact .refl _
  saveCitations cs cs' same := by
    simp only [answer, blind.saveCitations cs cs' same]
    exact .refl _
  saveResult x x' same := by
    simp only [answer, blind.saveResult x x' same]
    exact .refl _
  requestReview _ _ := .refl _
  markEvaluated _ := .refl _

theorem Blind.alike {b : Backing} (blind : b.Blind) {x y : Exchange Call.interface}
    (hx : b.Answers x) (hy : b.Answers y) (like : x.call.Like y.call) : Alike Eq x y := by
  obtain ⟨c, r⟩ := x
  obtain ⟨d, t⟩ := y
  obtain ⟨time, id, hr⟩ := hx
  obtain ⟨time', id', ht⟩ := hy
  dsimp only at like hr ht
  subst hr
  subst ht
  exact (blind.answeredAlike time time' id id').alike like

end Backing

theorem tolerance_eq : Tolerance Eq Eq :=
  ⟨fun h => h ▸ rfl, fun _ => rfl, fun h => h ▸ rfl, fun _ _ _ h => h ▸ rfl⟩

theorem CheckReport.Alike.unstamped_eq {y y' : CheckReport} (h : CheckReport.Alike Eq y y') :
    y.unstamped = y'.unstamped := by
  have combined := h.combined_eq
  obtain ⟨core, base, w, w', replies, warned, warned'⟩ := h
  have warnings : y.warnings = y'.warnings := by rw [warned, warned', combined, replies.eq]
  exact congrArg₂ (fun (z : CheckReport) ws => { z with warnings := ws }) core warnings

section

variable {b : Backing} {s : EngineSettings} {caseId : String} {o : BatchOptions}
  {visaTypeIds : List String} {facts : Facts} {asOf : Instant}

/-- A single check may end so. -/
def Backing.Ends (b : Backing) (s : EngineSettings) (r : CheckRequest)
    (y : Except Raised CheckReport) : Prop :=
  ∃ h, Returns (Check.run s r) h y ∧ ∀ e ∈ h, b.Answers e

theorem Batch.ready_checks : Sharing.Ready b.versions asOf
    ⟨Batch.checks s caseId o facts asOf visaTypeIds, []⟩ := by
  constructor
  case asks =>
    intro p hp
    obtain ⟨v, -, rfl⟩ := List.mem_map.1 hp
    exact (Check.only_overFacts rfl).mono fun c => Sharing.asksOn_of_asksFor
  case sound =>
    intro key l hl
    cases hl

theorem returns_run_of_overFacts {r : CheckRequest} {h : History Call.interface}
    {y : Except Raised CheckReport} (hr : Returns (Check.overFacts s r facts) h y) :
    Returns (Check.run s r) (⟨.facts r.caseId, .ok facts⟩ :: h) y :=
  .step _ hr

theorem Backing.Ends.alike {r : CheckRequest} (blind : b.Blind) (hd : r.evaluationDate = some asOf)
    {y z : Except Raised CheckReport} (hy : b.Ends s r y) (hz : b.Ends s r z) :
    Matching Eq (fun y z => y.unstamped = z.unstamped) y z := by
  obtain ⟨h, hy, answered⟩ := hy
  obtain ⟨h', hz, answered'⟩ := hz
  have inStep := Check.inStep_run (s := s) tolerance_eq hd fun _ _ same => same
  have related := inStep.agree hy hz fun x hx y hy like =>
    blind.alike (answered x hx) (answered' y hy) like
  cases related with
  | ok alike => exact .ok alike.unstamped_eq
  | error same => exact .error same

namespace Batch

/-- The checks of a batch run side by side and answered by one backing end as single checks do. At
whatever point they stand they can go on to their ends; the report then has one entry for each, in
their order, which is what a single check of that visa type on the date ends with, up to ids and
times if the stores do not look at these. -/
theorem agrees_with_single_checks {before : History Call.interface}
    {h : SharedHistory Call.interface} {x : Sharing (Except Raised CheckReport)}
    (prepared : Returns (prepare caseId o) before (.ok (facts, asOf)))
    (read : ∀ e ∈ before, b.Answers e)
    (steps : Sharing.Steps b.versions ⟨checks s caseId o facts asOf visaTypeIds, []⟩ h x)
    (answered : ∀ e ∈ h, e.2.call.isLookup = false → b.Answers e.2) :
    (∃ h' y, Sharing.Steps b.versions x h' y ∧ (∀ e ∈ h', b.Answers e.2) ∧
      ∃ outcomes : List (Except Raised CheckReport), y.programs = outcomes.map done) ∧
    ∀ outcomes : List (Except Raised CheckReport), x.programs = outcomes.map done →
      Tallied visaTypeIds outcomes (report caseId (visaTypeIds.zip outcomes)) ∧
      ∀ (n : Nat) (v : String), visaTypeIds[n]? = some v → ∃ y, outcomes[n]? = some y ∧
        b.Ends s (request caseId o asOf v) y ∧
        (b.Blind → ∀ z, b.Ends s (request caseId o asOf v) z →
          Matching Eq (fun y z => y.unstamped = z.unstamped) y z) := by
  obtain ⟨ready, looked⟩ := steps.looked_up ready_checks
  refine ⟨?_, fun outcomes ended => ?_⟩
  · obtain ⟨h', lookups, rest, answered'⟩ :=
      ready.completes (b.answer .invalid "") fun _ _ => rfl
    refine ⟨h', _, rest, fun e he => ⟨.invalid, "", ?_⟩, _, rfl⟩
    rw [answered' e he]
  have interleaves := steps.interleaves
  rw [ended] at interleaves
  have length : outcomes.length = visaTypeIds.length := by
    have := interleaves.length_eq
    simpa [checks] using this
  refine ⟨tallied_report caseId length, fun n v hv => ?_⟩
  have bound : n < outcomes.length := by
    have := (List.getElem?_eq_some_iff.1 hv).1
    omega
  refine ⟨outcomes[n], List.getElem?_eq_getElem bound, ?_⟩
  have ends : b.Ends s (request caseId o asOf v) outcomes[n] := by
    obtain ⟨p, hp, hr⟩ := interleaves.reaches (n := n) (q := done outcomes[n]) (by simp [bound])
    simp only [checks, List.getElem?_map, hv, Option.map_some] at hp
    cases hp
    refine ⟨_, returns_run_of_overFacts hr, List.forall_mem_cons.2 ⟨?_, fun e he => ?_⟩⟩
    · exact read _ (Inquiry.facts_of_prepare prepared)
    · have shared := mem_own.1 he
      cases hc : e.call.isLookup with
      | false => exact answered _ shared hc
      | true =>
        obtain ⟨c, r⟩ := e
        cases c with
        | ruleVersion visaTypeId d => exact ⟨.invalid, "", looked _ shared _ _ _ rfl⟩
        | _ => cases hc
  exact ⟨ends, fun blind z hz => ends.alike blind rfl hz⟩

def sampleBacking (text : String) : Backing where
  facts _ := .ok .empty
  versions := RuleSource.find { versions := [{ (default : RuleVersion) with
    visaTypeId := "visa-1", published := true, effectiveFrom := .ofMillis 0 }] }
  embedding _ _ := .ok [1]
  search _ _ _ _ _ := .ok []
  completion _ _ _ := .ok ⟨text, "mock-model", none⟩
  saveLog _ := .ok ()
  saveCitations _ := .ok ()
  saveResult _ := .ok ()
  requestReview _ _ := .ok ()
  markEvaluated _ := .ok ()

def sampleOutcomes (text : String) (visaTypeIds : List String) : List (Except Raised CheckReport) :=
  (checks Session.citingSettings "case-1" {} .empty (.ofMillis 0) visaTypeIds).map fun p =>
    (trace (I := Call.interface) ((sampleBacking text).answer (.ofMillis 0) "id-1") p).2

theorem sample_steps (text : String) (visaTypeIds : List String) :
    ∃ h lookups, Sharing.Steps (sampleBacking text).versions
      ⟨checks Session.citingSettings "case-1" {} .empty (.ofMillis 0) visaTypeIds, []⟩ h
      ⟨(sampleOutcomes text visaTypeIds).map done, lookups⟩ ∧
      ∀ e ∈ h, (sampleBacking text).Answers e.2 := by
  have ready : Sharing.Ready (sampleBacking text).versions (.ofMillis 0)
      ⟨checks Session.citingSettings "case-1" {} .empty (.ofMillis 0) visaTypeIds, []⟩ := ready_checks
  obtain ⟨h, lookups, steps, answered⟩ :=
    ready.completes ((sampleBacking text).answer (.ofMillis 0) "id-1") fun _ _ => rfl
  refine ⟨h, lookups, steps, fun e he => ⟨.ofMillis 0, "id-1", ?_⟩⟩
  rw [answered e he]

def sharedIds : List String := ["visa-1", "visa-2", "visa-1"]

/-- Two checks of a visa type that share a lookup, and one of a visa type without rules. -/
theorem agrees_with_single_checks_shared :
    ∃ h x, Sharing.Steps (sampleBacking "OUTCOME: not_eligible").versions
        ⟨checks Session.citingSettings "case-1" {} .empty (.ofMillis 0) sharedIds, []⟩ h x ∧
      x.programs = (sampleOutcomes "OUTCOME: not_eligible" sharedIds).map done ∧
      (sampleOutcomes "OUTCOME: not_eligible" sharedIds).map
        (fun y => y.toOption.map fun z => z.result.conclusion) =
          [some (.outcome .notEligible), none, some (.outcome .notEligible)] ∧
      Tallied sharedIds (sampleOutcomes "OUTCOME: not_eligible" sharedIds)
        (report "case-1" (sharedIds.zip (sampleOutcomes "OUTCOME: not_eligible" sharedIds))) ∧
      ∃ y, (sampleOutcomes "OUTCOME: not_eligible" sharedIds)[2]? = some y ∧
        ∀ z, (sampleBacking "OUTCOME: not_eligible").Ends Session.citingSettings
            (request "case-1" {} (.ofMillis 0) "visa-1") z →
          Matching Eq (fun y z => y.unstamped = z.unstamped) y z := by
  obtain ⟨h, lookups, steps, answered⟩ := sample_steps "OUTCOME: not_eligible" sharedIds
  have prepared := returns_trace (I := Call.interface)
    ((sampleBacking "OUTCOME: not_eligible").answer (.ofMillis 0) "id-1") (prepare "case-1" {})
  have read : ∀ e ∈ (trace (I := Call.interface)
      ((sampleBacking "OUTCOME: not_eligible").answer (.ofMillis 0) "id-1") (prepare "case-1" {})).1,
      (sampleBacking "OUTCOME: not_eligible").Answers e := by
    intro e he
    rw [eq_of_mem_trace he]
    exact ⟨_, _, rfl⟩
  have blind : (sampleBacking "OUTCOME: not_eligible").Blind :=
    ⟨fun _ _ _ => rfl, fun _ _ _ => rfl, fun _ _ _ => rfl⟩
  obtain ⟨tallied, each⟩ :=
    (agrees_with_single_checks prepared read steps fun e he _ => answered e he).2 _ rfl
  obtain ⟨y, hy, -, same⟩ := each 2 "visa-1" (by rfl)
  exact ⟨h, _, steps, rfl, by decide +kernel, tallied, y, hy, same blind⟩

/-- A report with a reserved conclusion counts as succeeded and under no outcome. -/
theorem succeeds_uncounted :
    ∃ h x, Sharing.Steps (sampleBacking "OUTCOME: constructor").versions
        ⟨checks Session.citingSettings "case-1" {} .empty (.ofMillis 0) ["visa-1"], []⟩ h x ∧
      (∀ e ∈ h, (sampleBacking "OUTCOME: constructor").Answers e.2) ∧
      x.programs = (sampleOutcomes "OUTCOME: constructor" ["visa-1"]).map done ∧
      (report "case-1" (["visa-1"].zip
        (sampleOutcomes "OUTCOME: constructor" ["visa-1"]))).summary.succeeded = 1 ∧
      Outcome.all.map (fun o => Entries.get? (report "case-1" (["visa-1"].zip
        (sampleOutcomes "OUTCOME: constructor" ["visa-1"]))).summary.outcomes o.name) =
          [some 0, some 0, some 0] := by
  obtain ⟨h, lookups, steps, answered⟩ := sample_steps "OUTCOME: constructor" ["visa-1"]
  refine ⟨h, _, steps, answered, rfl, ?_, ?_⟩
  · decide +kernel
  · decide +kernel

end Batch
end
end VisaEligibility
