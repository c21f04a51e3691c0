import VisaEligibility.Proofs.Check.BatchAgreement
import VisaEligibility.Proofs.Check.SourceCalls
/-!
The rule lookups of a batch. The source is asked once for each visa type, whichever check comes
first and whatever the source answers and when; all checks of a visa type go by its one answer, and
a report is on the version that this answer has in force.
-/
set_option autoImplicit false

namespace VisaEligibility

open Program Sharing

theorem LookupCall.isNewest_of_choice {c : LookupCall} {listed : LookupCall.Answer}
    {v : RuleVersion} (chosen : c.choice listed = .ok v) :
    ∃ candidates, listed = .ok candidates ∧ v.IsNewest candidates c.asOf := by
  cases listed with
  | error e => cases chosen
  | ok candidates => exact ⟨candidates, rfl, RuleVersion.isNewest_of_choose chosen⟩

namespace Check

variable {s : EngineSettings} {r : CheckRequest} {facts : Facts} {asOf : Instant}
  {h : History Call.interface} {y : Except Raised CheckReport}

/-- What the reply to its lookup makes of a check: without a version it fails for that reason, and a
report is on the version. -/
structure Applies (reply : Except Raised RuleVersion) (y : Except Raised CheckReport) : Prop where
  failed : ∀ e, reply = .error e → y = .error e.reported
  applied : ∀ z, y = .ok z → ∃ v, reply = .ok v ∧ z.rule.ruleVersionId = v.id ∧
    z.result.ruleVersionId = v.id

theorem Applies.of_error (v : RuleVersion) (e : Raised) : Applies (.ok v) (.error e) := by
  constructor
  case failed =>
    intro _ he
    cases he
  case applied =>
    intro _ hz
    cases hz

theorem eq_of_dated (hd : r.evaluationDate = some asOf) {time : Instant}
    (dated : Returns (evaluationDate r) h time) : time = asOf := by
  rw [evaluationDate, hd] at dated
  exact (returns_done.1 dated).2

theorem Course.applies (hd : r.evaluationDate = some asOf) (course : Course s r facts h y) :
    ∃ reply, ⟨.ruleVersion r.visaTypeId asOf, reply⟩ ∈ h ∧ Applies reply y := by
  cases course with
  | @undecided h₁ h₂ time e dated failed =>
    obtain rfl := eq_of_dated hd dated
    cases Deciding.of_returns failed with
    | noVersion =>
      refine ⟨.error e, by simp, fun e' same => ?_, fun z hz => by cases hz⟩
      cases same
      rfl
    | aborted v asked => exact ⟨.ok v, by simp, .of_error v _⟩
  | unstored dated decided failed =>
    obtain rfl := eq_of_dated hd dated
    cases Deciding.of_returns decided with
    | decided v asked => exact ⟨.ok v, by simp, .of_error v _⟩
  | untold dated decided stored failed =>
    obtain rfl := eq_of_dated hd dated
    cases Deciding.of_returns decided with
    | decided v asked => exact ⟨.ok v, by simp, .of_error v _⟩
  | concluded dated decided stored last =>
    obtain rfl := eq_of_dated hd dated
    cases Deciding.of_returns decided with
    | decided v asked =>
      refine ⟨.ok v, by simp, fun e he => (by cases he), fun z hz => ?_⟩
      cases hz
      cases returns_conclude.1 last with
      | told w hw =>
        cases Storing.of_returns stored with
        | stored answer id time => exact ⟨v, rfl, rfl, rfl⟩

theorem overFacts_eq_call (hd : r.evaluationDate = some asOf) :
    ∃ k, overFacts s r facts = .call (.ruleVersion r.visaTypeId asOf) k := by
  have dated : evaluationDate r = done asOf := by
    rw [evaluationDate, hd]
    rfl
  unfold overFacts
  rw [dated]
  exact ⟨_, rfl⟩

end Check

namespace Batch

variable {s : EngineSettings} {caseId : String} {o : BatchOptions} {visaTypeIds : List String}
  {facts : Facts} {asOf : Instant} {past : List Event}
  {x : Sharing (Except Raised CheckReport)}

theorem accounted_checks (valid : asOf.isValid = true)
    (run : Moves ⟨checks s caseId o facts asOf visaTypeIds, []⟩ past x) :
    Accounted visaTypeIds asOf past x := by
  refine (Accounted.start fun p hp => ?_).moves valid run
  obtain ⟨v, hv, rfl⟩ := List.mem_map.1 hp
  refine (Check.only_overFacts rfl).mono fun c hc => ?_
  cases c with
  | ruleVersion v' d =>
    obtain ⟨same, dated⟩ := Bool.and_eq_true_iff.1 hc
    obtain rfl : v' = v := of_decide_eq_true same
    exact Bool.and_eq_true_iff.2 ⟨List.contains_iff_mem.2 hv, dated⟩
  | _ => rfl

theorem reached_of_moves (run : Moves ⟨checks s caseId o facts asOf visaTypeIds, []⟩ past x)
    {n : Nat} {v : String} (hv : visaTypeIds[n]? = some v)
    {p : Engine (Except Raised CheckReport)} (hp : x.programs[n]? = some p) :
    Reaches (Check.overFacts s (request caseId o asOf v) facts) (own n (exchanges past)) p := by
  obtain ⟨p', hp', hr⟩ := run.interleaves.reaches hp
  simp only [checks, List.getElem?_map, hv, Option.map_some] at hp'
  cases hp'
  exact hr

theorem exists_program (run : Moves ⟨checks s caseId o facts asOf visaTypeIds, []⟩ past x)
    {v : String} (hv : v ∈ visaTypeIds) :
    ∃ (n : Nat) (p : Engine (Except Raised CheckReport)),
      visaTypeIds[n]? = some v ∧ x.programs[n]? = some p := by
  obtain ⟨n, bound, same⟩ := List.mem_iff_getElem.1 hv
  have length := run.interleaves.length_eq
  have bound' : n < x.programs.length := by
    rw [length]
    simpa [checks] using bound
  exact ⟨n, _, List.getElem?_eq_some_iff.2 ⟨bound, same⟩, List.getElem?_eq_getElem bound'⟩

theorem count_asks_of_mem (valid : asOf.isValid = true)
    (run : Moves ⟨checks s caseId o facts asOf visaTypeIds, []⟩ past x) (idle : AsksNoMore x)
    {v : String} (hv : v ∈ visaTypeIds) : (asks past).count ⟨v, asOf⟩ = 1 := by
  have accounted := accounted_checks valid run
  obtain ⟨n, p, hn, hp⟩ := exists_program run hv
  have reached := reached_of_moves run hn hp
  obtain ⟨k, begins⟩ : ∃ k, Check.overFacts s (request caseId o asOf v) facts =
      .call (.ruleVersion v asOf) k := Check.overFacts_eq_call rfl
  rw [begins] at reached
  rcases reaches_call.1 reached with ⟨-, rfl⟩ | ⟨r, h, made, -⟩
  · obtain ⟨key, keyed⟩ := LookupCall.exists_key? (c := ⟨v, asOf⟩) valid
    have stands := accounted.standing _ _ keyed
    cases found : Entries.get? x.lookups key with
    | none => exact absurd (.ask hp keyed found) (idle _ _)
    | some l =>
      rw [found] at stands
      exact stands.count_of_some
  · have given : ⟨.ruleVersion v asOf, r⟩ ∈ own n (exchanges past) := by
      rw [made]
      exact List.mem_cons_self
    exact (accounted.replied valid (mem_own.1 given)).2.1

theorem count_asks (valid : asOf.isValid = true)
    (run : Moves ⟨checks s caseId o facts asOf visaTypeIds, []⟩ past x) (idle : AsksNoMore x)
    (v : String) : (asks past).count ⟨v, asOf⟩ = if v ∈ visaTypeIds then 1 else 0 := by
  split
  · rename_i hv
    exact count_asks_of_mem valid run idle hv
  · rename_i hv
    exact List.count_eq_zero.2 fun hc => hv ((accounted_checks valid run).asked _ hc).1

/-- The lookups of a batch so far: no question is put twice, each is for a visa type of the batch
on its date, and what a check was given was chosen from the one answer to its question. -/
structure SharesLookups (visaTypeIds : List String) (asOf : Instant) (past : List Event) :
    Prop where
  once : (asks past).Nodup
  asked : ∀ c ∈ asks past, c.visaTypeId ∈ visaTypeIds ∧ c.asOf = asOf
  given : ∀ n v d r, (n, ⟨.ruleVersion v d, r⟩) ∈ exchanges past → d = asOf ∧
    ∃ listed, answersTo ⟨v, asOf⟩ past = [listed] ∧ r = LookupCall.choice ⟨v, asOf⟩ listed

/-- How a check of a visa type has ended, as the source has answered for it. -/
structure Follows (v : String) (asOf : Instant) (listed : LookupCall.Answer)
    (y : Except Raised CheckReport) : Prop where
  applies : Check.Applies (LookupCall.choice ⟨v, asOf⟩ listed) y
  newest : ∀ z, y = .ok z → ∃ candidates, ∃ w : RuleVersion, listed = .ok candidates ∧
    w.IsNewest candidates asOf ∧ z.rule.ruleVersionId = w.id ∧ z.result.ruleVersionId = w.id

theorem follows_of_moves (valid : asOf.isValid = true)
    (run : Moves ⟨checks s caseId o facts asOf visaTypeIds, []⟩ past x) {n : Nat} {v : String}
    (hv : visaTypeIds[n]? = some v) {y : Except Raised CheckReport}
    (ended : x.programs[n]? = some (done y)) :
    ∃ listed, answersTo ⟨v, asOf⟩ past = [listed] ∧ Follows v asOf listed y := by
  have course := Check.returns_overFacts.1 (reached_of_moves run hv ended)
  obtain ⟨reply, given, applies⟩ := course.applies rfl
  obtain ⟨-, -, listed, answered, rfl⟩ :=
    (accounted_checks valid run).replied valid (mem_own.1 given)
  refine ⟨listed, answered, applies, fun z hz => ?_⟩
  obtain ⟨w, chosen, rule, result⟩ := applies.applied z hz
  obtain ⟨candidates, listing, newest⟩ := LookupCall.isNewest_of_choice chosen
  exact ⟨candidates, w, listing, newest, rule, result⟩

/-- On a valid date the checks of a batch have the source asked once for each visa type, in whatever
order they run and whenever and however it answers. All that wait for a visa type are given what is
chosen from the one answer; a report is on a version listed there that is in force and of which none
is newer, and without a version a check fails. At whatever point they stand, the checks can go on to
their ends. -/
theorem looks_up_each_visa_type_once {before : History Call.interface}
    (prepared : Returns (prepare caseId o) before (.ok (facts, asOf)))
    (valid : asOf.isValid = true)
    (run : Moves ⟨checks s caseId o facts asOf visaTypeIds, []⟩ past x) :
    (∀ e ∈ before, e.call.isLookup = false) ∧ SharesLookups visaTypeIds asOf past ∧
    (AsksNoMore x → ∀ v, (asks past).count ⟨v, asOf⟩ = if v ∈ visaTypeIds then 1 else 0) ∧
    (∀ (n : Nat) v y, visaTypeIds[n]? = some v → x.programs[n]? = some (done y) →
      ∃ listed, answersTo ⟨v, asOf⟩ past = [listed] ∧ Follows v asOf listed y) ∧
    ∃ later z, Moves x later z ∧
      (∃ outcomes : List (Except Raised CheckReport), z.programs = outcomes.map done) ∧
      ∀ v, (asks (past ++ later)).count ⟨v, asOf⟩ = if v ∈ visaTypeIds then 1 else 0 := by
  have accounted := accounted_checks valid run
  refine ⟨fun e he => ?_, ⟨accounted.nodup_asks valid, accounted.asked, ?_⟩, count_asks valid run,
    fun n v y hv ended => follows_of_moves valid run hv ended, ?_⟩
  · have unlike := (Inquiry.only_prepare caseId o).of_reaches prepared e he
    obtain ⟨c, r⟩ := e
    cases c <;> first | rfl | cases unlike
  · intro n v d r he
    obtain ⟨same, -, listed, answered, chosen⟩ := accounted.replied valid he
    exact ⟨same, listed, answered, chosen⟩
  · obtain ⟨later, z, rest, outcomes, ended⟩ := accounted.completes
    exact ⟨later, z, rest, ⟨outcomes, ended⟩,
      count_asks valid (run.trans rest) (asksNoMore_of_ended ended)⟩

/-- Three checks for two visa types, which end with two questions put to the source. -/
theorem looks_up_each_visa_type_once_shared :
    ∃ before past x, Returns (prepare "case-1" {}) before (.ok (.empty, .ofMillis 0)) ∧
      (Instant.ofMillis 0).isValid = true ∧
      Moves ⟨checks Session.citingSettings "case-1" {} .empty (.ofMillis 0) sharedIds, []⟩ past x ∧
      x.programs = (sampleOutcomes "OUTCOME: not_eligible" sharedIds).map done ∧
      (∀ v, (asks past).count ⟨v, .ofMillis 0⟩ = if v ∈ sharedIds then 1 else 0) ∧
      ∃ listed y z, answersTo ⟨"visa-1", .ofMillis 0⟩ past = [listed] ∧
        (sampleOutcomes "OUTCOME: not_eligible" sharedIds)[0]? = some y ∧
        (sampleOutcomes "OUTCOME: not_eligible" sharedIds)[2]? = some z ∧
        Follows "visa-1" (.ofMillis 0) listed y ∧ Follows "visa-1" (.ofMillis 0) listed z := by
  obtain ⟨h, lookups, steps, -⟩ := sample_steps "OUTCOME: not_eligible" sharedIds
  obtain ⟨past, run, -⟩ := steps.moves
  have prepared := returns_trace (I := Call.interface)
    ((sampleBacking "OUTCOME: not_eligible").answer (.ofMillis 0) "id-1") (prepare "case-1" {})
  obtain ⟨-, -, counted, follows, -⟩ := looks_up_each_visa_type_once prepared rfl run
  obtain ⟨listed, answered, first⟩ := follows 0 "visa-1" _ rfl rfl
  obtain ⟨listed', answered', last⟩ := follows 2 "visa-1" _ rfl rfl
  obtain rfl : listed = listed' := by
    rw [answered] at answered'
    exact (List.cons.inj answered').1
  exact ⟨_, past, _, prepared, rfl, run, rfl, counted (asksNoMore_of_ended rfl), listed, _, _,
    answered, rfl, rfl, first, last⟩

def createdOn (id : String) (time : Instant) : RuleVersion :=
  { (default : RuleVersion) with
    id, visaTypeId := "visa-1", published := true, effectiveFrom := .ofMillis 0, createdAt := time }

/-- An older and a newer version, and between them one of which nobody knows when it was created. -/
def partlyDated : List RuleVersion :=
  [createdOn "rv-a" (.ofMillis 0), createdOn "rv-b" .invalid, createdOn "rv-c" (.ofMillis 1)]

def partlyDatedBacking : Backing := { sampleBacking "" with versions := fun _ _ => .ok partlyDated }

def rulesOnly : EngineSettings := { aiReasoningEnabled := false }

def partlyDatedOutcome : Except Raised CheckReport :=
  (trace (I := Call.interface) (partlyDatedBacking.answer (.ofMillis 0) "id-1")
    (Check.overFacts rulesOnly (request "case-1" {} (.ofMillis 0) "visa-1") .empty)).2

theorem ruleVersionId_partlyDatedOutcome : ∃ y, partlyDatedOutcome = .ok y ∧
    y.result.ruleVersionId = "rv-a" := by
  have reported : partlyDatedOutcome.toOption.map (fun y => y.result.ruleVersionId) =
      some "rv-a" := by decide +kernel
  obtain ⟨y, hy, id⟩ := Option.map_eq_some_iff.1 reported
  cases ended : partlyDatedOutcome with
  | error e =>
    rw [ended] at hy
    cases hy
  | ok z =>
    rw [ended] at hy
    cases hy
    exact ⟨_, rfl, id⟩

/-- A batch whose facts cannot be read looks nothing up, and where one of the versions in force was
created at no valid time, a report may be on one that is older than another. -/
theorem lookups_fall_short :
    (∃ before e, Returns (prepare "case-1" {}) before (.error e) ∧
      ∀ x ∈ before, x.call.isLookup = false) ∧
    ∃ past x y, Moves ⟨checks rulesOnly "case-1" {} .empty (.ofMillis 0) ["visa-1"], []⟩ past x ∧
      x.programs = [done (.ok y)] ∧ answersTo ⟨"visa-1", .ofMillis 0⟩ past = [.ok partlyDated] ∧
      ∀ v ∈ partlyDated, v.id = y.result.ruleVersionId →
        ∃ w ∈ partlyDated, w.isInForce (.ofMillis 0) = true ∧ RuleVersion.byAge v w = .lt := by
  constructor
  · refine ⟨[⟨.facts "case-1", .error (.value .null)⟩], .value .null, .step _ (.here _), ?_⟩
    simp [Call.isLookup]
  · obtain ⟨y, ended, id⟩ := ruleVersionId_partlyDatedOutcome
    have ready : Ready partlyDatedBacking.versions (.ofMillis 0)
        ⟨checks rulesOnly "case-1" {} .empty (.ofMillis 0) ["visa-1"], []⟩ := ready_checks
    obtain ⟨h, lookups, steps, -⟩ :=
      ready.completes (partlyDatedBacking.answer (.ofMillis 0) "id-1") fun _ _ => rfl
    obtain ⟨past, run, faithful⟩ := steps.moves
    obtain ⟨listed, answered, -⟩ := follows_of_moves rfl run (n := 0) (v := "visa-1") rfl rfl
    obtain rfl : listed = .ok partlyDated :=
      faithful.answers ⟨"visa-1", .ofMillis 0⟩ listed (by rw [answered]; exact List.mem_cons_self)
    refine ⟨past, _, y, run, congrArg (fun y => [done y]) ended, answered, ?_⟩
    rw [id]
    decide

end Batch
end VisaEligibility
