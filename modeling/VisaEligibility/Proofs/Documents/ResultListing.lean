import VisaEligibility.Proofs.Bench.Results
import VisaEligibility.Proofs.Documents.Serving
import VisaEligibility.Proofs.Text.Surrogates
/-!
The results of a case as the document store and the stores in memory list them. Both put the newer
ones first. The document store lists the first hundred, and may order results created at one time
differently.
-/
set_option autoImplicit false

namespace VisaEligibility.Documents

open Program

def readBack (r : EligibilityResult) : EligibilityResult :=
  EligibilityResult.ofDocument (.ofValue r.toDocument.toValue)

def storedAs (p : String × EligibilityResult) : Value := withId p.1 p.2.toDocument.toValue

theorem readBack_fields (r : EligibilityResult) : readBack r =
    { r with
      conclusion := Conclusion.ofValue r.conclusion.toValue
      summary := .ofString r.summary.toString
      missingFacts := (r.missingFacts.map Value.text).filterMap Value.text?
      reasoningLogId :=
        (((r.reasoningLogId.map Value.text).getD .null).text?).filter fun s => !s.isEmpty } :=
  rfl

theorem readBack_eq {r : EligibilityResult} {o : Outcome} (concluded : r.conclusion = .outcome o)
    (logged : r.reasoningLogId ≠ some "") (summary : r.summary.wellFormed = true) :
    readBack r = r := by
  have conclusion : Conclusion.ofValue r.conclusion.toValue = r.conclusion := by
    rw [concluded]
    cases o <;> rfl
  have missing : (r.missingFacts.map Value.text).filterMap Value.text? = r.missingFacts := by
    rw [List.filterMap_map]
    exact List.filterMap_some
  have log : (((r.reasoningLogId.map Value.text).getD .null).text?).filter (fun s => !s.isEmpty) =
      r.reasoningLogId := by
    cases known : r.reasoningLogId with
    | none => rfl
    | some id =>
      have filled : id ≠ "" := fun empty => logged (by rw [known, empty])
      simp [Value.text?, filled]
  rw [readBack_fields, conclusion, Text.Units.ofString_toString summary, missing, log]

def Numbered (ps : List (String × EligibilityResult)) : Prop := (ps.map Prod.fst).Pairwise (· < ·)

/-- The sort keys of a search for results: the time of creation, then the id, both descending. -/
abbrev latestFirst : SortKeys := [("created_at", .descending), ("_id", .descending)]

def byRecency : String × EligibilityResult → String × EligibilityResult → Ordering :=
  compareLex (fun p q => compareOn (fun p => p.2.createdAt.millis) q p)
    fun p q => compareOn Prod.fst q p

instance : Std.TransCmp byRecency := by
  have times : Std.TransCmp fun p q : String × EligibilityResult =>
      compareOn (fun p => p.2.createdAt.millis) q p := Std.TransCmp.opposite
  have ids : Std.TransCmp fun p q : String × EligibilityResult => compareOn Prod.fst q p :=
    Std.TransCmp.opposite
  unfold byRecency
  infer_instance

namespace Storage

def saveResults (c : Connection) : List EligibilityResult → Storage Unit
  | [] => pure ()
  | r :: rs => do
    saveResult c r
    saveResults c rs

def savedThenListed (c : Connection) (rs : List EligibilityResult) (caseId : String) :
    Storage (List EligibilityResult) := do
  saveResults c rs
  results c caseId defaultLimit

end Storage

variable {ps qs : List (String × EligibilityResult)} {r : EligibilityResult}
  {rs : List EligibilityResult} {documents documents' : List Value} {caseId : String}
  {h : History StoreCall.interface}

theorem field_storedAs_id (p : String × EligibilityResult) :
    (storedAs p).field "_id" = .text p.1 := rfl

theorem returns_saveResult {x : Except Raised Unit} :
    Returns (Storage.saveResult ⟨true⟩ r).run h x ↔
      h = [⟨.insertOne .results r.toDocument.toValue, x⟩] := by
  refine Storage.returns_call.trans ?_
  constructor
  · rintro (⟨e, refused, -⟩ | ⟨-, saved⟩)
    · cases refused
    · exact returns_perform.1 saved
  · rintro rfl
    exact .inr ⟨rfl, returns_perform.2 rfl⟩

theorem numbered_concat {id : String} (increasing : Numbered ps) (latest : ∀ p ∈ ps, p.1 < id) :
    Numbered (ps ++ [(id, r)]) := by
  rw [Numbered, List.map_append, List.pairwise_append]
  refine ⟨increasing, List.pairwise_singleton _ _, fun i hi j hj => ?_⟩
  obtain ⟨p, hp, rfl⟩ := List.mem_map.1 hi
  obtain rfl := List.mem_singleton.1 hj
  exact latest p hp

/-- A result that is stored gets the greatest id. -/
theorem numbered_of_serves (increasing : Numbered ps) {x : Except Raised Unit}
    (served : Serves .results (ps.map storedAs) ⟨.insertOne .results r.toDocument.toValue, x⟩
      documents) :
    x = .ok () ∧ ∃ id, documents = (ps ++ [(id, r)]).map storedAs ∧ Numbered (ps ++ [(id, r)]) := by
  cases served with
  | @insertOne _ id latest =>
    refine ⟨rfl, id, by simp [storedAs], numbered_concat increasing fun p hp => ?_⟩
    obtain ⟨earlier, own, less⟩ := latest (storedAs p) (List.mem_map_of_mem hp)
    rw [field_storedAs_id, Value.text.injEq] at own
    rw [own]
    exact less

theorem exists_serves_save (ps : List (String × EligibilityResult)) (r : EligibilityResult) :
    ∃ id, Serves .results (ps.map storedAs)
      ⟨.insertOne .results r.toDocument.toValue, (.ok () : Except Raised Unit)⟩
      ((ps ++ [(id, r)]).map storedAs) ∧ ∀ p ∈ ps, p.1 < id := by
  obtain ⟨id, greater⟩ := exists_greater (ps.map Prod.fst)
  have latest : ∀ p ∈ ps, p.1 < id := fun p hp => greater p.1 (List.mem_map_of_mem hp)
  refine ⟨id, ?_, latest⟩
  rw [List.map_append]
  refine .insertOne fun d hd => ?_
  obtain ⟨p, hp, rfl⟩ := List.mem_map.1 hd
  exact ⟨p.1, field_storedAs_id p, latest p hp⟩

theorem numbered_of_saveResults {x : Except Raised Unit} (increasing : Numbered ps)
    (hr : Returns (Storage.saveResults ⟨true⟩ rs).run h x)
    (served : Serving .results (ps.map storedAs) h documents) :
    x = .ok () ∧ ∃ qs, qs.map Prod.snd = rs ∧ documents = (ps ++ qs).map storedAs ∧
      Numbered (ps ++ qs) := by
  induction rs generalizing ps h with
  | nil =>
    obtain ⟨rfl, rfl⟩ := Attempt.returns_pure.1 hr
    cases served
    exact ⟨rfl, [], rfl, by simp, by simpa using increasing⟩
  | cons r rs ih =>
    rw [Storage.saveResults] at hr
    rcases Attempt.returns_bind.1 hr with ⟨e, rfl, failed⟩ | ⟨h₁, _, h₂, rfl, saved, rest⟩
    · obtain rfl := returns_saveResult.1 failed
      cases (numbered_of_serves increasing (serving_singleton.1 served)).1
    · obtain rfl := returns_saveResult.1 saved
      obtain ⟨between, first, later⟩ := serving_append.1 served
      obtain ⟨-, id, rfl, longer⟩ := numbered_of_serves increasing (serving_singleton.1 first)
      obtain ⟨ended, qs, all, stored, numbered⟩ := ih longer rest later
      rw [List.append_assoc] at stored numbered
      exact ⟨ended, (id, r) :: qs, by rw [List.map_cons, all], stored, numbered⟩

theorem exists_saveResults (ps : List (String × EligibilityResult)) (increasing : Numbered ps)
    (rs : List EligibilityResult) : ∃ h qs,
      Returns (Storage.saveResults ⟨true⟩ rs).run h (.ok ()) ∧
      Serving .results (ps.map storedAs) h ((ps ++ qs).map storedAs) ∧
      qs.map Prod.snd = rs := by
  induction rs generalizing ps with
  | nil => exact ⟨[], [], returns_done.2 ⟨rfl, rfl⟩, by simpa using .nil _, rfl⟩
  | cons r rs ih =>
    obtain ⟨id, served, latest⟩ := exists_serves_save ps r
    obtain ⟨h, qs, saved, later, all⟩ := ih (ps ++ [(id, r)]) (numbered_concat increasing latest)
    rw [List.append_assoc] at later
    refine ⟨_ :: h, (id, r) :: qs, ?_, .cons served later, by rw [List.map_cons, all]⟩
    rw [Storage.saveResults]
    exact Attempt.returns_bind.2 (.inr ⟨[_], (), h, rfl, returns_saveResult.2 rfl, saved⟩)

theorem returns_results {x : Except Raised (List EligibilityResult)} {limit : Number} :
    Returns (Storage.results ⟨true⟩ caseId limit).run h x ↔
      ∃ r, h = [⟨.find .results [Storage.ofCase caseId]
          latestFirst (some limit), r⟩] ∧
        x = r.map fun ds => ds.map fun d => EligibilityResult.ofDocument (.ofValue d) := by
  have asked : (Storage.results ⟨true⟩ caseId limit).run =
      perform (.find .results [Storage.ofCase caseId] latestFirst (some limit)) >>= fun r =>
        done (r.map fun ds => ds.map fun d => EligibilityResult.ofDocument (.ofValue d)) := by
    refine congrArg (Program.call _) (funext fun r => ?_)
    cases r with
    | error e => rfl
    | ok found => rfl
  rw [asked, bind_eq, returns_bind]
  constructor
  · rintro ⟨h₁, r, h₂, rfl, found, ended⟩
    obtain rfl := returns_perform.1 found
    obtain ⟨rfl, rfl⟩ := returns_done.1 ended
    exact ⟨r, rfl, rfl⟩
  · rintro ⟨r, rfl, rfl⟩
    exact ⟨_, r, [], (List.append_nil _).symm, returns_perform.2 rfl, returns_done.2 ⟨rfl, rfl⟩⟩

theorem meets_ofCase (caseId : String) (p : String × EligibilityResult) :
    (∀ c ∈ [Storage.ofCase caseId], c.Meets (storedAs p)) ↔ (p.2.caseId == caseId) = true := by
  have stored : (storedAs p).field "case_id" = .text p.2.caseId := rfl
  simp [Storage.ofCase, Condition.Meets, reached, stored, Value.list?]

theorem order_storedAs {p q : String × EligibilityResult} (hp : p.2.createdAt.isValid = true)
    (hq : q.2.createdAt.isValid = true) :
    SortKeys.order latestFirst (storedAs p) (storedAs q) = byRecency p q := by
  have unfolded : SortKeys.order latestFirst (storedAs p) (storedAs q) =
      ((q.2.createdAt.order? p.2.createdAt).getD .eq).then ((compare q.1 p.1).then .eq) := rfl
  rw [unfolded, Ordering.then_eq, Instant.order?_of_valid hq hp]
  rfl

theorem limited_default (found : List Value) :
    limited (some Storage.defaultLimit) found = found.take 100 := by
  have hundred : ((some Storage.defaultLimit).bind Number.truncate?).map Int.natAbs = some 100 := by
    decide +kernel
  rw [limited, hundred]

/-- What is listed of stored results: those of a case, the newer and then the later stored first. -/
structure Listed (ps : List (String × EligibilityResult)) (caseId : String)
    (listed : List (String × EligibilityResult)) : Prop where
  perm : listed.Perm (ps.filter fun p => p.2.caseId == caseId)
  sorted : listed.Pairwise fun p q => byRecency p q ≠ .gt

theorem Listed.mem {listed : List (String × EligibilityResult)} (hl : Listed ps caseId listed)
    {p : String × EligibilityResult} (hp : p ∈ listed) : p ∈ ps ∧ (p.2.caseId == caseId) = true :=
  List.mem_filter.1 (hl.perm.mem_iff.1 hp)

theorem listed_of_serves (valid : ∀ p ∈ ps, p.2.createdAt.isValid = true)
    {x : Except Raised (List Value)} (served : Serves .results (ps.map storedAs)
      ⟨.find .results [Storage.ofCase caseId] latestFirst (some Storage.defaultLimit), x⟩
      documents) :
    ∃ listed, Listed ps caseId listed ∧ x = .ok ((listed.take 100).map storedAs) := by
  cases served with
  | find meets sorted =>
    rename_i found
    have among : found.Perm ((ps.map storedAs).filter fun d =>
        (d.field "case_id").text? == some caseId) := by
      refine meets.perm_filter fun d hd => ?_
      obtain ⟨p, -, rfl⟩ := List.mem_map.1 hd
      have stored : (storedAs p).field "case_id" = .text p.2.caseId := rfl
      rw [meets_ofCase, stored, beq_iff_eq, beq_iff_eq]
      exact (Option.some_inj (a := p.2.caseId)).symm
    rw [List.filter_map] at among
    obtain ⟨listed, perm, rfl⟩ := exists_perm_of_perm_map among
    have known : ∀ p ∈ listed, p.2.createdAt.isValid = true := fun p hp =>
      valid p (List.mem_filter.1 (perm.mem_iff.1 hp)).1
    rw [List.pairwise_map] at sorted
    refine ⟨listed, ⟨perm, sorted.imp_of_mem fun {p q} hp hq before => ?_⟩, ?_⟩
    · rwa [order_storedAs (known p hp) (known q hq)] at before
    · rw [limited_default, List.map_take]

theorem exists_listed (ps : List (String × EligibilityResult)) (caseId : String) :
    ∃ listed, Listed ps caseId listed := by
  refine ⟨Sorting.sort (fun p q => byRecency p q == .lt) (ps.filter fun p => p.2.caseId == caseId),
    Sorting.sort_perm _ _, ?_⟩
  have sorted := Sorting.sort_sorted (Sorting.isPreorder_of_cmp byRecency)
    (ps.filter fun p => p.2.caseId == caseId)
  refine sorted.imp fun {p q} later greater => ?_
  have less : byRecency q p = .lt := Std.OrientedCmp.lt_of_gt greater
  simp [less] at later

theorem serves_of_listed (valid : ∀ p ∈ ps, p.2.createdAt.isValid = true)
    {listed : List (String × EligibilityResult)} (hl : Listed ps caseId listed) :
    Serves .results (ps.map storedAs)
      ⟨.find .results [Storage.ofCase caseId] latestFirst (some Storage.defaultLimit),
        .ok (limited (some Storage.defaultLimit) (listed.map storedAs))⟩ (ps.map storedAs) := by
  have split : ps.Perm (listed ++ ps.filter fun p => !(p.2.caseId == caseId)) :=
    (List.filter_append_perm (fun p => p.2.caseId == caseId) ps).symm.trans
      (hl.perm.symm.append_right _)
  refine .find ⟨(ps.filter fun p => !(p.2.caseId == caseId)).map storedAs, ?_, ?_, ?_⟩ ?_
  · rw [← List.map_append]
    exact split.map storedAs
  · intro d hd
    obtain ⟨p, hp, rfl⟩ := List.mem_map.1 hd
    exact (meets_ofCase caseId p).2 (hl.mem hp).2
  · intro d hd
    obtain ⟨p, hp, rfl⟩ := List.mem_map.1 hd
    have other := (List.mem_filter.1 hp).2
    rw [meets_ofCase]
    simpa using other
  · rw [List.pairwise_map]
    refine hl.sorted.imp_of_mem fun {p q} hp hq before => ?_
    rwa [order_storedAs (valid p (hl.mem hp).1) (valid q (hl.mem hq).1)]

theorem valid_stored (valid : ∀ r ∈ rs, r.createdAt.isValid = true) (all : ps.map Prod.snd = rs) :
    ∀ p ∈ ps, p.2.createdAt.isValid = true :=
  fun p hp => valid p.2 (all ▸ List.mem_map_of_mem hp)

theorem listed_of_savedThenListed (valid : ∀ r ∈ rs, r.createdAt.isValid = true)
    {x : Except Raised (List EligibilityResult)}
    (hr : Returns (Storage.savedThenListed ⟨true⟩ rs caseId).run h x)
    (served : Serving .results [] h documents) :
    ∃ ps listed, ps.map Prod.snd = rs ∧ Numbered ps ∧ Listed ps caseId listed ∧
      x = .ok ((listed.take 100).map fun p => readBack p.2) := by
  have none : Numbered [] := List.Pairwise.nil
  rw [Storage.savedThenListed] at hr
  rcases Attempt.returns_bind.1 hr with ⟨e, -, failed⟩ | ⟨h₁, _, h₂, rfl, saved, found⟩
  · cases (numbered_of_saveResults none failed served).1
  · obtain ⟨between, first, later⟩ := serving_append.1 served
    obtain ⟨-, ps, all, rfl, numbered⟩ := numbered_of_saveResults none saved first
    obtain ⟨r, rfl, rfl⟩ := returns_results.1 found
    obtain ⟨listed, hl, rfl⟩ :=
      listed_of_serves (valid_stored valid all) (serving_singleton.1 later)
    refine ⟨ps, listed, all, numbered, hl, ?_⟩
    rw [Except.map, List.map_map]
    rfl

theorem exists_savedThenListed (valid : ∀ r ∈ rs, r.createdAt.isValid = true) (caseId : String) :
    ∃ h x documents, Returns (Storage.savedThenListed ⟨true⟩ rs caseId).run h x ∧
      Serving .results [] h documents := by
  obtain ⟨h, ps, saved, served, all⟩ := exists_saveResults [] List.Pairwise.nil rs
  obtain ⟨listed, hl⟩ := exists_listed ps caseId
  have found := serves_of_listed (valid_stored valid all) hl
  refine ⟨h ++ [_], _, _, Attempt.returns_bind.2 (.inr ⟨h, (), _, rfl, saved,
    returns_results.2 ⟨_, rfl, rfl⟩⟩), serving_append.2 ⟨_, served, serving_singleton.2 found⟩⟩

theorem Listed.newestFirst (valid : ∀ p ∈ ps, p.2.createdAt.isValid = true)
    {listed : List (String × EligibilityResult)} (hl : Listed ps caseId listed) :
    NewestFirst (listed.map Prod.snd) := by
  rw [NewestFirst, List.pairwise_map]
  refine hl.sorted.imp_of_mem fun {p q} hp hq before => ?_
  rw [Instant.lt_of_valid (valid p (hl.mem hp).1) (valid q (hl.mem hq).1), beq_eq_false_iff_ne]
  intro older
  have newer : compareOn (fun p : String × EligibilityResult => p.2.createdAt.millis) q p = .gt :=
    Std.OrientedCmp.gt_of_lt older
  exact before (by rw [byRecency, compareLex, newer]; rfl)

/-- What is listed is determined by the ids. -/
theorem Listed.unique (numbered : Numbered ps) {listed listed' : List (String × EligibilityResult)}
    (hl : Listed ps caseId listed) (hl' : Listed ps caseId listed') : listed = listed' := by
  have apart : (ps.map Prod.fst).Nodup := numbered.imp ne_of_lt
  have same : listed.Perm listed' := hl.perm.trans hl'.perm.symm
  refine same.eq_of_pairwise (fun p q hp hq le ge => ?_) hl.sorted hl'.sorted
  have level : byRecency p q = .eq := by
    cases order : byRecency p q with
    | eq => rfl
    | gt => exact absurd order le
    | lt => exact absurd (Std.OrientedCmp.gt_of_lt order) ge
  have ids : compare q.1 p.1 = .eq := (Ordering.then_eq_eq.1 level).2
  exact List.inj_on_of_nodup_map apart (hl.mem hp).1 (hl'.mem hq).1
    (Std.LawfulEqCmp.eq_of_compare ids).symm

/-- Both stores list the results of a case, the newest first. The document store lists the first
hundred, each as it reads back from its document; only among results created at one time may the
orders differ. -/
theorem listings_agree_up_to_ties {c : Connection} (opened : c.opened = true)
    {rs : List EligibilityResult} (valid : ∀ r ∈ rs, r.createdAt.isValid = true) (caseId : String)
    (now : Instant) :
    let memory := ((Bench.start now).saving rs).stores.resultsOf caseId
    (memory.Perm (rs.filter fun r => r.caseId == caseId) ∧ NewestFirst memory) ∧
    (∃ h x documents, Returns (Storage.savedThenListed c rs caseId).run h x ∧
      Serving .results [] h documents) ∧
    (∀ h x documents, Returns (Storage.savedThenListed c rs caseId).run h x →
      Serving .results [] h documents → ∃ listed : List EligibilityResult,
        x = .ok ((listed.take 100).map readBack) ∧ listed.Perm memory ∧ NewestFirst listed ∧
        listed.map (·.createdAt) = memory.map (·.createdAt) ∧
        ((memory.map (·.createdAt)).Nodup → listed = memory)) ∧
    ∀ (r : EligibilityResult) (o : Outcome), r.conclusion = .outcome o →
      r.reasoningLogId ≠ some "" → r.summary.wellFormed = true → readBack r = r := by
  intro memory
  obtain ⟨_⟩ := c
  cases opened
  have stored : ((Bench.start now).saving rs).stores.results = rs :=
    Bench.results_saving (Bench.start now) rfl rs
  have among : memory.Perm (rs.filter fun r => r.caseId == caseId) := by
    have perm := Bench.Stores.resultsOf_perm caseId ((Bench.start now).saving rs).stores
    rwa [stored] at perm
  have newest : NewestFirst memory :=
    Bench.Stores.newestFirst_resultsOf (by rwa [stored])
  have known : ∀ r ∈ memory, r.createdAt.isValid = true := fun r hr =>
    valid r (List.mem_filter.1 (among.mem_iff.1 hr)).1
  refine ⟨⟨among, newest⟩, exists_savedThenListed valid caseId, fun h x documents hr served => ?_,
    fun r o => readBack_eq⟩
  obtain ⟨ps, listed, rfl, -, hl, rfl⟩ := listed_of_savedThenListed valid hr served
  have same : (listed.map Prod.snd).Perm memory := by
    have perm := hl.perm.map Prod.snd
    have image : (ps.filter fun p => p.2.caseId == caseId).map Prod.snd =
        (ps.map Prod.snd).filter fun r => r.caseId == caseId := by
      rw [List.filter_map]
      rfl
    rw [image] at perm
    exact perm.trans among.symm
  have sorted := hl.newestFirst (valid_stored valid rfl)
  refine ⟨listed.map Prod.snd, ?_, same, sorted, sorted.times_eq newest same known,
    sorted.eq_of_distinct newest same known⟩
  rw [← List.map_take, List.map_map]
  rfl

def resultAt (id : String) (createdAt : Instant) : EligibilityResult :=
  { id
    caseId := "case-1"
    visaTypeId := "skilled"
    ruleVersionId := "rv-1"
    conclusion := .outcome .eligible
    confidence := 1
    summary := .ofString "All requirements passed."
    missingFacts := []
    reasoningLogId := none
    aiUnavailable := false
    conflictDetected := false
    escalated := false
    createdAt }

def tiedResults : List EligibilityResult :=
  [resultAt "a" (.ofMillis 0), resultAt "b" (.ofMillis 0), resultAt "c" (.ofMillis 1)]

theorem listings_agree_up_to_ties_shared_time :
    (∀ r ∈ tiedResults, r.createdAt.isValid = true) ∧ ∃ h listed documents,
      Returns (Storage.savedThenListed ⟨true⟩ tiedResults "case-1").run h (.ok listed) ∧
      Serving .results [] h documents ∧
      listed.map (·.createdAt) = [.ofMillis 1, .ofMillis 0, .ofMillis 0] := by
  have valid : ∀ r ∈ tiedResults, r.createdAt.isValid = true := by decide
  obtain ⟨-, ⟨h, x, documents, hr, served⟩, every, -⟩ :=
    listings_agree_up_to_ties (c := ⟨true⟩) rfl valid "case-1" .invalid
  obtain ⟨listed, rfl, -, -, times, -⟩ := every h x documents hr served
  have memory : (((Bench.start .invalid).saving tiedResults).stores.resultsOf "case-1").map
      (·.createdAt) = [.ofMillis 1, .ofMillis 0, .ofMillis 0] := by decide +kernel
  have three : listed.length ≤ 100 := by
    have lengths := congrArg List.length (times.trans memory)
    rw [List.length_map] at lengths
    exact lengths.trans_le (by decide)
  refine ⟨valid, h, _, documents, hr, served, ?_⟩
  rw [List.take_of_length_le three, List.map_map]
  exact times.trans memory

def resultsOver (n : Nat) : List EligibilityResult :=
  (List.range n).map fun i => resultAt (toString i) (.ofMillis i)

theorem valid_resultsOver (n : Nat) : ∀ r ∈ resultsOver n, r.createdAt.isValid = true := by
  intro r hr
  obtain ⟨i, -, rfl⟩ := List.mem_map.1 hr
  rfl

theorem listed_pair_reversed {a b : EligibilityResult} {x : Except Raised (List EligibilityResult)}
    (valid : ∀ r ∈ [a, b], r.createdAt.isValid = true) (together : a.createdAt = b.createdAt)
    (same : a.caseId = b.caseId)
    (hr : Returns (Storage.savedThenListed ⟨true⟩ [a, b] b.caseId).run h x)
    (served : Serving .results [] h documents) : x = .ok [readBack b, readBack a] := by
  obtain ⟨ps, listed, all, numbered, hl, rfl⟩ := listed_of_savedThenListed valid hr served
  obtain ⟨⟨i, a⟩, rest, rfl, rfl, second⟩ := List.map_eq_cons_iff.1 all
  obtain ⟨⟨j, b⟩, rest, rfl, rfl, none⟩ := List.map_eq_cons_iff.1 second
  obtain rfl := List.map_eq_nil_iff.1 none
  have less : i < j := by simpa [Numbered] using numbered
  have order : byRecency (j, b) (i, a) = .lt := by
    have times : compare a.createdAt.millis b.createdAt.millis = .eq := by
      rw [show a.createdAt = b.createdAt from together]
      exact Std.ReflCmp.compare_self
    have later : compare i j = .lt := compare_lt_iff_lt.2 less
    simp [byRecency, compareLex, compareOn, times, later]
  have turned : Listed [(i, a), (j, b)] b.caseId [(j, b), (i, a)] := by
    refine ⟨?_, List.pairwise_pair.2 (by simp [order])⟩
    have both : [(i, a), (j, b)].filter (fun p => p.2.caseId == b.caseId) = [(i, a), (j, b)] :=
      List.filter_eq_self.2 (by simpa using same)
    rw [both]
    exact List.Perm.swap _ _ _
  rw [hl.unique numbered turned]
  rfl

/-- Of a hundred and one results the document store lists one less than are listed in memory, and of
two results created together it lists the later one first. -/
theorem listings_differ :
    (∃ h x documents, Returns (Storage.savedThenListed ⟨true⟩ (resultsOver 101) "case-1").run h x ∧
      Serving .results [] h documents ∧
      x ≠ .ok (((Bench.start .invalid).saving (resultsOver 101)).stores.resultsOf "case-1")) ∧
    ∃ h x documents, Returns (Storage.savedThenListed ⟨true⟩
        [resultAt "a" (.ofMillis 0), resultAt "b" (.ofMillis 0)] "case-1").run h x ∧
      Serving .results [] h documents ∧
      x ≠ .ok (((Bench.start .invalid).saving
        [resultAt "a" (.ofMillis 0), resultAt "b" (.ofMillis 0)]).stores.resultsOf "case-1") := by
  constructor
  · obtain ⟨h, x, documents, hr, served⟩ := exists_savedThenListed (valid_resultsOver 101) "case-1"
    refine ⟨h, x, documents, hr, served, fun same => ?_⟩
    obtain ⟨ps, listed, -, -, -, rfl⟩ := listed_of_savedThenListed (valid_resultsOver 101) hr served
    have lengths := congrArg List.length (Except.ok.inj same)
    have whole : (((Bench.start .invalid).saving (resultsOver 101)).stores.resultsOf
        "case-1").length = 101 := by
      rw [(Bench.Stores.resultsOf_perm _ _).length_eq, Bench.results_saving _ rfl]
      decide +kernel
    rw [List.length_map, List.length_take, whole] at lengths
    omega
  · have valid : ∀ r ∈ [resultAt "a" (.ofMillis 0), resultAt "b" (.ofMillis 0)],
        r.createdAt.isValid = true := by decide
    obtain ⟨h, x, documents, hr, served⟩ := exists_savedThenListed valid "case-1"
    refine ⟨h, x, documents, hr, served, fun same => ?_⟩
    rw [listed_pair_reversed valid rfl rfl hr served] at same
    have ids : ["b", "a"] = ["a", "b"] :=
      congrArg (List.map EligibilityResult.id) (Except.ok.inj same)
    exact absurd ids (by decide)

end VisaEligibility.Documents
