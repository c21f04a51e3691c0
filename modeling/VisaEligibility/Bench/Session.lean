import VisaEligibility.Bench.Basic
/-!
Sessions on a bench: checks and batches, and what is stored after them. After each of them the
records it made are numbered: for every report first its log, then its result, and then the logs
that no report refers to, by prompt and answer.
-/
set_option autoImplicit false

namespace VisaEligibility.Bench

open Clock (World)

abbrev Renaming := List (String × String)

namespace Renaming

def apply (r : Renaming) (id : String) : String := (Entries.get? r id).getD id

def numbered (n : Nat) : String := "id-" ++ toString n

def ofIds (n : Nat) : List String → Renaming
  | [] => []
  | id :: ids => (id, numbered n) :: ofIds (n + 1) ids

end Renaming

def numberOf (id : String) : Nat := Number.ofDigits ((id.toList.drop 3).filter Char.isDigit)

def renameResult (r : Renaming) (x : EligibilityResult) : EligibilityResult :=
  { x with id := r.apply x.id, reasoningLogId := x.reasoningLogId.map r.apply }

def renameLog (r : Renaming) (x : ReasoningLog) : ReasoningLog := { x with id := r.apply x.id }

def renameCitation (r : Renaming) (x : Citation) : Citation :=
  { x with reasoningLogId := r.apply x.reasoningLogId }

def renameReport (r : Renaming) (x : CheckReport) : CheckReport :=
  { x with result := renameResult r x.result, log := x.log.map (renameLog r),
           citations := x.citations.map (renameCitation r) }

def renameStores (r : Renaming) (s : Stores) : Stores :=
  { s with results := s.results.map (renameResult r), logs := s.logs.map (renameLog r),
           citations := s.citations.map (renameCitation r) }

def logPrecedes (a b : ReasoningLog) : Bool :=
  match Text.unitOrder a.prompt b.prompt with
  | .lt => true
  | .gt => false
  | .eq => Text.unitLe a.responseText b.responseText

def reportIds (r : CheckReport) : List String := (r.log.map (·.id)).toList ++ [r.result.id]

/-- A bench with the number of the next record to be named. -/
structure Session where
  world : BenchWorld
  nextId : Nat := 1

namespace Session

def bench (s : Session) : Bench := s.world.state

def change (s : Session) (f : Bench → Bench) : Session :=
  { s with world := { s.world with state := f s.world.state } }

/-- Names the records that some reports refer to, and the other new logs. -/
def number (reports : List CheckReport) (s : Session) : Renaming × Session :=
  let reported := reports.flatMap reportIds
  let isNew := fun l : ReasoningLog => l.id.startsWith "new-" && !reported.contains l.id
  let orphans := ((s.bench.stores.logs.filter isNew).mergeSort logPrecedes).map (·.id)
  let ids := reported ++ orphans
  let r := Renaming.ofIds s.nextId ids
  (r, { (s.change fun b => { b with stores := renameStores r b.stores }) with
        nextId := s.nextId + ids.length })

def newRun (s : Session) : Session := s.change fun b => { b with cache := [] }

def check (settings : EngineSettings) (r : CheckRequest) (s : Session) :
    Except Raised CheckReport × Session :=
  let (result, w) := World.run environment (Check.run settings r) s.newRun.world
  let (names, s) := number result.toOption.toList { s with world := w }
  (result.map (renameReport names), s)

def checkBatch (settings : EngineSettings) (caseId : String) (visaTypeIds : List String)
    (o : BatchOptions) (s : Session) : Except Raised BatchReport × Session :=
  let (prepared, w) := World.run environment (Batch.prepare caseId o) s.newRun.world
  match prepared with
  | .error e => (.error e, { s with world := w })
  | .ok (facts, asOf) =>
    let (outcomes, w) :=
      World.runAll environment (Batch.checks settings caseId o facts asOf visaTypeIds) w
    let settled := (visaTypeIds.zip outcomes).filterMap fun e => e.2.map fun r => (e.1, r)
    let (names, s) := number (settled.filterMap fun e => e.2.toOption) { s with world := w }
    (.ok (Batch.report caseId (settled.map fun e => (e.1, e.2.map (renameReport names)))), s)

/-- Whether a result comes before another: the newer first, those stored at one time by number. -/
def resultBefore (a b : EligibilityResult) : Bool :=
  match b.createdAt.order? a.createdAt with
  | some .lt => true
  | some .gt => false
  | _ => numberOf a.id < numberOf b.id

def list (caseId : String) (s : Session) : Except Raised (List EligibilityResult) :=
  match s.bench.faults.of .findByCaseId with
  | some e => .error e
  | none => .ok (Sorting.sort resultBefore (s.bench.stores.resultsOf caseId))

def dump (s : Session) : Stores :=
  let st := s.bench.stores
  { results := st.results.mergeSort fun a b => numberOf a.id ≤ numberOf b.id
    logs := st.logs.mergeSort fun a b => numberOf a.id ≤ numberOf b.id
    citations := st.citations.mergeSort fun a b =>
      numberOf a.reasoningLogId ≤ numberOf b.reasoningLogId
    reviews := st.reviews.mergeSort fun a b =>
      Text.unitLe (a.1 ++ ": " ++ a.2) (b.1 ++ ": " ++ b.2)
    evaluated := st.evaluated.mergeSort Text.unitLe }

end Session
end VisaEligibility.Bench
