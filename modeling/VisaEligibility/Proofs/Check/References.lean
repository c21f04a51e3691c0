import Mathlib.Data.List.Flatten
import Mathlib.Data.List.Perm.Basic
import VisaEligibility.Bench.Basic
import VisaEligibility.Check.Batch
import VisaEligibility.Proofs.Check.Grounding
import VisaEligibility.Proofs.Program.Interleaving
/-!
References between stored records. In a session checks and batches are made, one after another or
side by side; whatever fails, and wherever each of them stands, the stored results and citations
refer to stored logs, and no two results to the same one.
-/
set_option autoImplicit false

namespace VisaEligibility

open Program

namespace Bench

/-- What the stores hold after an exchange; a write that fails stores nothing. -/
def Stores.after (s : Stores) : Exchange Call.interface → Stores
  | ⟨.saveLog l, .ok ()⟩ => { s with logs := s.logs ++ [l] }
  | ⟨.saveCitations cs, .ok ()⟩ => { s with citations := s.citations ++ cs }
  | ⟨.saveResult x, .ok ()⟩ => { s with results := s.results ++ [x] }
  | ⟨.requestReview caseId reason, .ok ()⟩ => { s with reviews := s.reviews ++ [(caseId, reason)] }
  | ⟨.markEvaluated caseId, .ok ()⟩ => { s with evaluated := s.evaluated ++ [caseId] }
  | _ => s

theorem stores_reply (c : Call) (b : Bench) :
    (reply c b).2.stores = b.stores.after ⟨c, (reply c b).1⟩ := by
  cases c with
  | facts caseId =>
    simp only [reply]
    split <;> rfl
  | search vector filters topK minSimilarity limit =>
    simp only [reply]
    split
    · rfl
    · split <;> rfl
  | saveLog l =>
    simp only [reply, write, Stores.write]
    cases b.faults.of .saveReasoningLog <;> rfl
  | saveCitations cs =>
    simp only [reply, write, Stores.write]
    cases b.faults.of .saveCitations <;> rfl
  | saveResult x =>
    simp only [reply, write, Stores.write]
    cases b.faults.of .saveEligibilityResult <;> rfl
  | requestReview caseId reason =>
    simp only [reply, write, Stores.write]
    cases b.faults.of .requestHumanReview <;> rfl
  | markEvaluated caseId =>
    simp only [reply, write, Stores.write]
    cases b.faults.of .markCaseEvaluated <;> rfl
  | _ => rfl

open Check (storedResult? storedResults storedLog? storedLogs citationsOf storedCitations)

theorem Stores.after_eq (s : Stores) (x : Exchange Call.interface) :
    (s.after x).results = s.results ++ (storedResult? x).toList ∧
      (s.after x).logs = s.logs ++ (storedLog? x).toList ∧
      (s.after x).citations = s.citations ++ citationsOf x := by
  obtain ⟨c, r⟩ := x
  cases c with
  | saveLog l => cases r <;> simp [after, storedResult?, storedLog?, citationsOf]
  | saveCitations cs => cases r <;> simp [after, storedResult?, storedLog?, citationsOf]
  | saveResult x => cases r <;> simp [after, storedResult?, storedLog?, citationsOf]
  | requestReview caseId reason =>
    cases r <;> simp [after, storedResult?, storedLog?, citationsOf]
  | markEvaluated caseId => cases r <;> simp [after, storedResult?, storedLog?, citationsOf]
  | _ => simp [after, storedResult?, storedLog?, citationsOf]

theorem Stores.foldl_after (s : Stores) (h : History Call.interface) :
    (h.foldl Stores.after s).results = s.results ++ storedResults h ∧
      (h.foldl Stores.after s).logs = s.logs ++ storedLogs h ∧
      (h.foldl Stores.after s).citations = s.citations ++ storedCitations h := by
  induction h generalizing s with
  | nil => simp [storedResults, storedLogs, storedCitations]
  | cons x h ih =>
    obtain ⟨results, logs, citations⟩ := Stores.after_eq s x
    obtain ⟨ihr, ihl, ihc⟩ := ih (s.after x)
    rw [List.foldl_cons, ihr, ihl, ihc, results, logs, citations]
    refine ⟨?_, ?_, ?_⟩
    · cases hx : storedResult? x <;> simp [storedResults, hx]
    · cases hx : storedLog? x <;> simp [storedLogs, hx]
    · simp [storedCitations]

theorem stores_eval {α : Type} (p : Engine α) (b : Bench) :
    (eval reply p b).2.stores = (record reply p b).foldl Stores.after b.stores := by
  induction p generalizing b with
  | done a => rfl
  | call c k ih =>
    rw [eval_call, ih, stores_reply]
    rfl

/-- What a stored result or citation refers to is stored, and no two results refer to one log. -/
structure Stores.Sound (s : Stores) : Prop where
  results : ∀ x ∈ s.results, ∀ id, x.reasoningLogId = some id →
    ∃ l ∈ s.logs, l.id = id ∧ l.caseId = x.caseId
  citations : ∀ c ∈ s.citations, ∃ l ∈ s.logs, l.id = c.reasoningLogId
  logs : (s.logs.map (·.id)).Nodup
  once : (s.results.filterMap (·.reasoningLogId)).Nodup

end Bench

inductive Inquiry where
  | check (r : CheckRequest)
  | batch (caseId : String) (visaTypeIds : List String) (o : BatchOptions)

structure CheckRun where
  request : CheckRequest
  history : History Call.interface

/-- An inquiry that is under way, with the runs of its checks: a check, a batch that is preparing,
or one whose checks run side by side. -/
inductive Inquiry.Underway (s : EngineSettings) :
    Inquiry → List CheckRun → History Call.interface → Prop where
  | check {r : CheckRequest} {h : History Call.interface} {p : Engine (Except Raised CheckReport)}
      (reached : Reaches (Check.run s r) h p) : Underway s (.check r) [⟨r, h⟩] h
  | preparing {caseId : String} {visaTypeIds : List String} {o : BatchOptions}
      {h : History Call.interface} {p : Engine (Except Raised (Facts × Instant))}
      (reached : Reaches (Batch.prepare caseId o) h p) :
      Underway s (.batch caseId visaTypeIds o) [] h
  | checking {caseId : String} {visaTypeIds : List String} {o : BatchOptions}
      {before : History Call.interface} {facts : Facts} {asOf : Instant}
      {h : SharedHistory Call.interface} {ps : List (Engine (Except Raised CheckReport))}
      (prepared : Returns (Batch.prepare caseId o) before (.ok (facts, asOf)))
      (reached : Interleaves (Batch.checks s caseId o facts asOf visaTypeIds) h ps) :
      Underway s (.batch caseId visaTypeIds o)
        (visaTypeIds.zipIdx.map fun e => ⟨Batch.request caseId o asOf e.1, own e.2 h⟩)
        (before ++ h.map Prod.snd)

def isChecking (c : Call) : Bool :=
  match c with
  | .facts _ => false
  | .now => false
  | _ => true

theorem unnamed_of_preparing {x : Exchange Call.interface} (hx : isChecking x.call = false) :
    newId? x = none ∧ Check.storedLog? x = none ∧ Check.storedResult? x = none := by
  obtain ⟨c, r⟩ := x
  cases c <;> first | exact ⟨rfl, rfl, rfl⟩ | cases hx

def CheckRun.checking (run : CheckRun) : History Call.interface :=
  run.history.filter fun x => isChecking x.call

namespace Inquiry

variable {s : EngineSettings} {q : Inquiry} {runs : List CheckRun} {h : History Call.interface}

theorem only_prepare (caseId : String) (o : BatchOptions) :
    (Batch.prepare caseId o).Only fun c => !isChecking c := by
  refine (only_perform.2 rfl).bind fun x => ?_
  cases x with
  | error e => exact only_done _ _
  | ok facts =>
    dsimp only
    cases o.evaluationDate with
    | none => exact (only_perform.2 rfl).bind fun _ => only_done _ _
    | some d => exact only_done _ _

theorem checking_of_prepare {caseId : String} {o : BatchOptions}
    {p : Engine (Except Raised (Facts × Instant))} (hr : Reaches (Batch.prepare caseId o) h p) :
    (h.filter fun x => isChecking x.call) = [] := by
  refine List.filter_eq_nil_iff.2 fun x hx => ?_
  have := (only_prepare caseId o).of_reaches hr x hx
  simpa using this

theorem Underway.shares (hu : Underway s q runs h) :
    (runs.flatMap CheckRun.checking).Perm (h.filter fun x => isChecking x.call) := by
  cases hu with
  | check reached => simp [CheckRun.checking]
  | preparing reached =>
    rw [checking_of_prepare reached]
    exact .refl _
  | @checking caseId visaTypeIds o before facts asOf h ps prepared reached =>
    have bounded : ∀ e ∈ h, e.1 ∈ (visaTypeIds.zipIdx.map Prod.snd) := by
      intro e he
      have := reached.index_lt e he
      simpa [Batch.checks, List.zipIdx_map_snd, List.mem_range'_1] using this
    have distinct : (visaTypeIds.zipIdx.map Prod.snd).Nodup := by
      rw [List.zipIdx_map_snd]
      exact List.nodup_range'
    have shares := (flatMap_own_perm distinct bounded).filter fun x => isChecking x.call
    rw [List.filter_append, checking_of_prepare prepared, List.nil_append]
    rw [List.filter_flatMap, List.flatMap_map] at shares
    rw [List.flatMap_map]
    exact shares

theorem facts_of_prepare {caseId : String} {o : BatchOptions} {facts : Facts} {asOf : Instant}
    (hr : Returns (Batch.prepare caseId o) h (.ok (facts, asOf))) :
    ⟨.facts caseId, .ok facts⟩ ∈ h := by
  obtain ⟨h₁, x, h₂, rfl, hf, ht⟩ := returns_bind.1 hr
  obtain rfl := returns_perform.1 hf
  cases x with
  | error e => cases (returns_done.1 ht).2
  | ok facts' =>
    dsimp only at ht
    split at ht
    · cases (returns_done.1 ht).2
      simp
    · obtain ⟨h₃, asOf', h₄, rfl, -, hd⟩ := returns_bind.1 ht
      cases (returns_done.1 hd).2
      simp

theorem Underway.traced (hu : Underway s q runs h) :
    ∀ run ∈ runs, ∃ facts, Check.Traced s run.request facts run.history ∧
      (Check.storedResults run.history ≠ [] →
        ⟨.facts run.request.caseId, .ok facts⟩ ∈ h) := by
  cases hu with
  | @check r h p reached =>
    intro run hr
    obtain rfl := List.mem_singleton.1 hr
    obtain ⟨facts, traced, begun⟩ := Check.Traced.of_reaches_run reached
    exact ⟨facts, traced, begun⟩
  | preparing reached => simp
  | @checking caseId visaTypeIds o before facts asOf h ps prepared reached =>
    intro run hr
    obtain ⟨e, he, rfl⟩ := List.mem_map.1 hr
    refine ⟨facts, ?_, fun _ => List.mem_append_left _ (facts_of_prepare prepared)⟩
    have bound : e.2 < ps.length := by
      rw [reached.length_eq]
      have := List.snd_lt_of_mem_zipIdx he
      simpa [Batch.checks] using this
    obtain ⟨p, hp, hr⟩ := reached.reaches (List.getElem?_eq_getElem bound)
    have own : visaTypeIds[e.2]? = some e.1 := List.mem_zipIdx_iff_getElem?.1 he
    simp only [Batch.checks, List.getElem?_map, own, Option.map_some] at hp
    cases hp
    exact .of_reaches hr

end Inquiry

/-- A session: inquiries under way, whose exchanges may follow each other in any order. -/
structure Session (s : EngineSettings) (inquiries : List Inquiry)
    (h : SharedHistory Call.interface) : Prop where
  bounded : ∀ e ∈ h, e.1 < inquiries.length
  underway : ∀ i q, inquiries[i]? = some q → ∃ runs, Inquiry.Underway s q runs (own i h)

namespace Session

variable {s : EngineSettings} {inquiries : List Inquiry} {h : SharedHistory Call.interface}

/-- What the stores hold after a session that began without records. -/
def stores (h : SharedHistory Call.interface) : Bench.Stores :=
  (h.map Prod.snd).foldl Bench.Stores.after {}

theorem shares (hs : Session s inquiries h) : ∃ runs : List CheckRun,
    (runs.flatMap CheckRun.checking).Perm
      ((h.map Prod.snd).filter fun x => isChecking x.call) ∧
    ∀ run ∈ runs, ∃ (i : Nat) (q : Inquiry) (rs : List CheckRun), inquiries[i]? = some q ∧
      Inquiry.Underway s q rs (own i h) ∧ run ∈ rs := by
  have each (i : Nat) : ∃ runs : List CheckRun, ∀ q, inquiries[i]? = some q →
      Inquiry.Underway s q runs (own i h) := by
    cases hq : inquiries[i]? with
    | none => exact ⟨[], fun q hq => nomatch hq⟩
    | some q =>
      obtain ⟨runs, hu⟩ := hs.underway i q hq
      refine ⟨runs, fun q' hq' => ?_⟩
      cases hq'
      exact hu
  obtain ⟨runsOf, underway⟩ := Classical.skolem.1 each
  have known {i : Nat} (hi : i ∈ List.range inquiries.length) :
      ∃ q, inquiries[i]? = some q := ⟨_, List.getElem?_eq_getElem (List.mem_range.1 hi)⟩
  refine ⟨(List.range inquiries.length).flatMap runsOf, ?_, ?_⟩
  · have all := (flatMap_own_perm List.nodup_range fun e he =>
      List.mem_range.2 (hs.bounded e he)).filter fun x => isChecking x.call
    rw [List.filter_flatMap] at all
    rw [List.flatMap_assoc]
    refine .trans (.flatMap_left _ fun i hi => ?_) all
    obtain ⟨q, hq⟩ := known hi
    exact (underway i q hq).shares
  · intro run hr
    obtain ⟨i, hi, hr⟩ := List.mem_flatMap.1 hr
    obtain ⟨q, hq⟩ := known hi
    exact ⟨i, q, runsOf i, hq, underway i q hq, hr⟩

section Shares

variable {runs : List CheckRun} {l : History Call.interface}
  (shared : (runs.flatMap CheckRun.checking).Perm (l.filter fun x => isChecking x.call))

include shared

theorem filterMap_shares {β : Type} {f : Exchange Call.interface → Option β}
    (hf : ∀ x, isChecking x.call = false → f x = none) :
    (runs.flatMap fun run => run.history.filterMap f).Perm (l.filterMap f) := by
  have kept (h : History Call.interface) :
      (h.filter fun x => isChecking x.call).filterMap f = h.filterMap f := by
    rw [List.filterMap_filter]
    refine List.filterMap_congr fun x _ => ?_
    cases hx : isChecking x.call with
    | true => rfl
    | false => simp [hf x hx]
  have perm := shared.filterMap f
  rw [kept, List.filterMap_flatMap] at perm
  refine .trans (.of_eq ?_) perm
  simp [CheckRun.checking, kept]

theorem mem_shares {x : Exchange Call.interface} (hx : isChecking x.call = true) :
    x ∈ l ↔ ∃ run ∈ runs, x ∈ run.history := by
  have perm : x ∈ runs.flatMap CheckRun.checking ↔ x ∈ l.filter fun x => isChecking x.call :=
    shared.mem_iff
  simpa [CheckRun.checking, List.mem_flatMap, List.mem_filter, hx] using perm.symm

theorem stored_shares :
    (∀ x, x ∈ Check.storedResults l ↔ ∃ run ∈ runs, x ∈ Check.storedResults run.history) ∧
      (∀ x, x ∈ Check.storedLogs l ↔ ∃ run ∈ runs, x ∈ Check.storedLogs run.history) ∧
      ∀ x, x ∈ Check.storedCitations l ↔ ∃ run ∈ runs, x ∈ Check.storedCitations run.history := by
  have moved {x : Exchange Call.interface} (hx : isChecking x.call = true) :
      x ∈ l ↔ ∃ run ∈ runs, x ∈ run.history := mem_shares shared hx
  refine ⟨fun x => ?_, fun x => ?_, fun x => ?_⟩
  · simpa only [Check.mem_storedResults] using moved (x := ⟨.saveResult x, .ok ()⟩) rfl
  · simpa only [Check.mem_storedLogs] using moved (x := ⟨.saveLog x, .ok ()⟩) rfl
  · simp only [Check.mem_storedCitations]
    constructor
    · rintro ⟨cs, hx, hc⟩
      obtain ⟨run, hr, hx⟩ := (moved rfl).1 hx
      exact ⟨run, hr, cs, hx, hc⟩
    · rintro ⟨run, hr, cs, hx, hc⟩
      exact ⟨cs, (moved rfl).2 ⟨run, hr, hx⟩, hc⟩

/-- What each run names only with new ids of its own is named once in all. -/
theorem nodup_shares {f : Exchange Call.interface → Option String}
    (hf : ∀ x, isChecking x.call = false → f x = none)
    (each : ∀ run ∈ runs, (run.history.filterMap f).Sublist (newIds run.history))
    (fresh : (newIds l).Nodup) : (l.filterMap f).Nodup := by
  have ids := filterMap_shares shared fun x hx => (unnamed_of_preparing hx).1
  have distinct := ids.nodup_iff.2 fresh
  refine (filterMap_shares shared hf).nodup_iff.1 (List.Sublist.nodup ?_ distinct)
  exact List.Sublist.flatMap_right _ each

end Shares

/-- Whatever fails in a session, and wherever its inquiries stand, the stored results and citations
refer to stored logs, the results to logs of their own cases and no two to the same. A stored result
names a log if and only if the model has answered in its check, and then all that the answer cites
is stored under that log; a result that names none says what the rules in force alone come to. The
stores of a bench hold what the history of its program has stored. -/
theorem stored_references (hs : Session s inquiries h)
    (fresh : (newIds (h.map Prod.snd)).Nodup) :
    (∀ (α : Type) (p : Engine α) (b : Bench) (i : Nat), b.stores = {} →
      (eval Bench.reply p b).2.stores = stores ((record Bench.reply p b).map (Prod.mk i))) ∧
    (stores h).Sound ∧
    ∀ x ∈ (stores h).results, ∃ (i : Nat) (q : Inquiry) (runs : List CheckRun) (run : CheckRun),
      inquiries[i]? = some q ∧ Inquiry.Underway s q runs (own i h) ∧ run ∈ runs ∧
      Check.storedResults run.history = [x] ∧
      (x.reasoningLogId ≠ none ↔ answers run.history ≠ []) ∧
      (∀ id, x.reasoningLogId = some id → ∃ a excerpts,
        Reasoning.Answered s.retrieval run.history a excerpts ∧
        ∀ e ∈ excerpts, ⟨id, e⟩ ∈ (stores h).citations) ∧
      (x.reasoningLogId = none → ∃ facts v asOf,
        ⟨.facts run.request.caseId, .ok facts⟩ ∈ own i h ∧
        ⟨.ruleVersion run.request.visaTypeId asOf, .ok v⟩ ∈ run.history ∧
        Check.DecidedByRules s (v.evaluate facts s.thresholds) x) := by
  obtain ⟨runs, shared, origin⟩ := hs.shares
  obtain ⟨results, logs, citations⟩ := Bench.Stores.foldl_after {} (h.map Prod.snd)
  rw [List.nil_append] at results logs citations
  have traced (run : CheckRun) (hr : run ∈ runs) :
      ∃ facts, Check.Traced s run.request facts run.history := by
    obtain ⟨i, q, rs, -, hu, hm⟩ := origin run hr
    obtain ⟨facts, traced, -⟩ := hu.traced run hm
    exact ⟨facts, traced⟩
  obtain ⟨mem_results, mem_logs, mem_citations⟩ := stored_shares shared
  rw [← results] at mem_results
  rw [← logs] at mem_logs
  rw [← citations] at mem_citations
  refine ⟨fun α p b i empty => ?_, ⟨?_, ?_, ?_, ?_⟩, ?_⟩
  · rw [Bench.stores_eval, empty, stores, List.map_map]
    exact congrArg (List.foldl _ _) (List.map_id _).symm
  · intro x hx id hid
    obtain ⟨run, hr, hx⟩ := (mem_results x).1 hx
    obtain ⟨facts, ht⟩ := traced run hr
    obtain ⟨l, hl, named, same⟩ := ht.reference hx hid
    exact ⟨l, (mem_logs l).2 ⟨run, hr, hl⟩, named, same⟩
  · intro c hc
    obtain ⟨run, hr, hc⟩ := (mem_citations c).1 hc
    obtain ⟨facts, ht⟩ := traced run hr
    obtain ⟨l, hl, named⟩ := ht.citations c hc
    exact ⟨l, (mem_logs l).2 ⟨run, hr, hl⟩, named⟩
  · rw [stores, logs, Check.storedLogs, List.map_filterMap]
    refine nodup_shares shared (fun x hx => ?_) (fun run hr => ?_) fresh
    · simp [(unnamed_of_preparing hx).2.1]
    · obtain ⟨facts, ht⟩ := traced run hr
      rw [← List.map_filterMap]
      exact ht.logIds_sublist
  · rw [stores, results, Check.storedResults, List.filterMap_filterMap]
    refine nodup_shares shared (fun x hx => ?_) (fun run hr => ?_) fresh
    · simp [(unnamed_of_preparing hx).2.2]
    · obtain ⟨facts, ht⟩ := traced run hr
      rw [← List.filterMap_filterMap]
      exact ht.references_sublist
  · intro x hx
    obtain ⟨run, hr, hx⟩ := (mem_results x).1 hx
    obtain ⟨i, q, rs, hq, hu, hm⟩ := origin run hr
    obtain ⟨facts, ht, begun⟩ := hu.traced run hm
    rcases ht.results with none | ⟨y, one, -, grounded⟩
    · simp [none] at hx
    obtain rfl : x = y := by simpa [one] using hx
    refine ⟨i, q, rs, run, hq, hu, hm, one, ?_⟩
    cases grounded with
    | answered completed stored named cited =>
      refine ⟨?_, fun id hid => ?_, fun unnamed => ?_⟩
      · simp [named, completed.answers_eq]
      · cases named.symm.trans hid
        exact ⟨_, _, completed, fun e he => (mem_citations _).2 ⟨run, hr, cited e he⟩⟩
      · cases named.symm.trans unnamed
    | unanswered lost unnamed read decided =>
      refine ⟨?_, fun id hid => ?_, fun _ => ?_⟩
      · simp [unnamed, lost]
      · cases unnamed.symm.trans hid
      · exact ⟨facts, _, _, begun (by simp [one]), read, decided⟩

def citingWorld : Answers Call.interface Nat
  | .newId, n => ("id-" ++ toString n, n + 1)
  | .embedding _ _, n => (.ok [1], n)
  | .search _ _ _ _ _, n =>
    (.ok [{ (default : Chunk) with documentVersionId := "doc-1", similarity := 1 }], n)
  | .completion _ _ _, n => (.ok ⟨"OUTCOME: eligible [1]", "mock-model", none⟩, n)
  | c, n => (Check.bareWorld default (.ok ()) (.ok ()) c, n)

def citingSettings : EngineSettings := { retrieval := { embeddingDimensions := some 1 } }

def citingInquiries : List Inquiry :=
  [.batch "case-1" ["visa-1"] {}, .check Check.bareRequest]

def citingCheck : Engine (Except Raised CheckReport) :=
  Check.overFacts citingSettings (Batch.request "case-1" {} (.ofMillis 0) "visa-1") .empty

def citingHistory : SharedHistory Call.interface :=
  (record citingWorld (Batch.prepare "case-1" {}) 1 ++ record citingWorld citingCheck 1).map
      (Prod.mk 0) ++
    (record citingWorld (Check.run citingSettings Check.bareRequest) 3).map (Prod.mk 1)

theorem citing_underway : Session citingSettings citingInquiries citingHistory := by
  constructor
  case bounded =>
    intro e he
    rcases List.mem_append.1 he with he | he
    · obtain ⟨x, -, rfl⟩ := List.mem_map.1 he
      exact Nat.zero_lt_two
    · obtain ⟨x, -, rfl⟩ := List.mem_map.1 he
      exact Nat.one_lt_two
  case underway =>
    intro i q hq
    match i with
    | 0 =>
      cases hq
      have own : own 0 citingHistory =
          record citingWorld (Batch.prepare "case-1" {}) 1 ++
            ((record citingWorld citingCheck 1).map (Prod.mk 0)).map Prod.snd := by
        unfold citingHistory
        rw [own_append, own_map_self, own_map_of_ne (by decide), List.append_nil, List.map_map]
        exact congrArg _ (List.map_id _).symm
      rw [own]
      have prepared := returns_record citingWorld (Batch.prepare "case-1" {}) 1
      exact ⟨_, .checking prepared (.of_reaches (n := 0) rfl (returns_record _ _ _))⟩
    | 1 =>
      cases hq
      have own : own 1 citingHistory =
          record citingWorld (Check.run citingSettings Check.bareRequest) 3 := by
        unfold citingHistory
        rw [own_append, own_map_of_ne (by decide), own_map_self, List.nil_append]
      rw [own]
      exact ⟨_, .check (returns_record _ _ _)⟩

/-- The result of the batch names the log of the answer and the citation is stored under it; the
other result names none. -/
theorem stored_references_citing :
    Session citingSettings citingInquiries citingHistory ∧
      (newIds (citingHistory.map Prod.snd)).Nodup ∧ (stores citingHistory).Sound ∧
      (stores citingHistory).results.map (·.reasoningLogId) = [some "id-1", none] ∧
      (stores citingHistory).citations.map (·.reasoningLogId) = ["id-1"] := by
  have fresh : (newIds (citingHistory.map Prod.snd)).Nodup := by decide +kernel
  refine ⟨citing_underway, fresh, (stored_references citing_underway fresh).2.1, ?_, ?_⟩
  · decide +kernel
  · decide +kernel

end Session
end VisaEligibility
