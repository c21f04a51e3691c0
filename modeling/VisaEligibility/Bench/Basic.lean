import VisaEligibility.Bench.Script
import VisaEligibility.Bench.Store
import VisaEligibility.Check.Batch
import VisaEligibility.Clock.Pool
import VisaEligibility.Rule.Lookup
/-!
A bench: the engine over in-memory stores and scripted services on a virtual clock. Each call is
answered from the state of the bench.
-/
set_option autoImplicit false

namespace VisaEligibility

open Clock (Time Wait Environment World)

structure CallCounts where
  embedding : Nat := 0
  search : Nat := 0
  model : Nat := 0
  facts : Nat := 0
  rules : Nat := 0
deriving DecidableEq, Repr, Inhabited

def CallCounts.since (now before : CallCounts) : CallCounts :=
  { embedding := now.embedding - before.embedding
    search := now.search - before.search
    model := now.model - before.model
    facts := now.facts - before.facts
    rules := now.rules - before.rules }

structure Bench where
  now : Instant
  facts : List (String × Facts) := []
  lookups : RuleLookups := {}
  cache : LookupCache := []
  chunks : List Chunk := []
  embedding : Bench.CodedScripts (List Number)
  search : Bench.Script Unit := { fallback := .ok () }
  model : Bench.CodedScripts String
  modelName : String
  faults : Bench.Faults := []
  stores : Bench.Stores := {}
  counters : Counters := {}
  calls : CallCounts := {}
  optionsUsed : List ModelOptions := []
  ids : Nat := 0

namespace Bench

def unitVector (dimensions : Nat) : List Number :=
  (List.range dimensions).map fun i => if i = 0 then 1 else 0

def noAnswer : Raised := .failure (.general "MockLLMProvider has no scripted response")

def defaultModelName : String := "mock-model"

def start (now : Instant) (dimensions : Nat := 4) (modelName : String := defaultModelName) :
    Bench :=
  { now
    embedding := ⟨{ fallback := .ok (unitVector dimensions) }, []⟩
    model := ⟨{ fallback := .error noAnswer }, []⟩
    modelName }

def queryIsAbout (text code : String) : Bool :=
  let start := "visa type: ".toList ++ code.toList
  text.toList = start || (start ++ [',']).isPrefixOf text.toList

def promptIsAbout (messages : List Message) (code : String) : Bool :=
  let start := "Visa type: ".toList ++ code.toList ++ ['\n']
  messages.any fun m => m.role = .user && start.isPrefixOf m.content.toList

def usage : TokenUsage := ⟨100, 20, 120⟩

def embeddingOperation : String := "Embedding generation"

def searchOperation : String := "Vector search"

def modelOperation : String := "Model completion"

def onTheSpot : Call → Bool
  | .now | .newId | .count _ => true
  | _ => false

def wait : (c : Call) → Bench → Wait (Call.Reply c) × Bench
  | .embedding text limit, b =>
    let (w, s) := b.embedding.wait (queryIsAbout text) limit embeddingOperation
    (w, { b with embedding := s })
  | .search _ _ _ _ limit, b =>
    let (w, s) := b.search.wait limit searchOperation
    let w : Wait (Except Raised (List Chunk)) := match w with
      | .nothing => .nothing
      | .pause t => .pause t
      | .service t l late => .service t l (late.map fun _ => [])
    (w, { b with search := s })
  | .completion messages _ limit, b =>
    let (w, s) := b.model.wait (promptIsAbout messages) limit modelOperation
    let w : Wait (Except Raised ModelAnswer) := match w with
      | .nothing => .nothing
      | .pause t => .pause t
      | .service t l late => .service t l (late.map fun text => ⟨text, "", none⟩)
    (w, { b with model := s })
  | .pause ms, b => (.pause (Clock.duration ms), b)
  | _, b => (.nothing, b)

def found (b : Bench) (filters : ChunkFilters) (minSimilarity : Number) : List Chunk :=
  b.chunks.filter fun c => minSimilarity.le c.similarity && c.meets filters

def write (b : Bench) (o : StoreOperation) (change : Stores → Stores) :
    Except Raised Unit × Bench :=
  let (r, s) := b.stores.write b.faults o change
  (r, { b with stores := s })

def reply : (c : Call) → Bench → Call.Reply c × Bench
  | .now, b => (b.now, b)
  | .newId, b => ("new-" ++ toString b.ids, { b with ids := b.ids + 1 })
  | .facts caseId, b =>
    let b := { b with calls.facts := b.calls.facts + 1 }
    match b.faults.of .getFacts with
    | some e => (.error e, b)
    | none => (.ok ((Entries.get? b.facts caseId).getD .empty), b)
  | .ruleVersion visaTypeId asOf, b =>
    let source := { b.lookups.source with fault := b.faults.of .findActiveRuleVersions }
    let (r, cache, lookups) :=
      RuleLookups.findCached { b.lookups with source } b.cache visaTypeId asOf
    (r, { b with cache, lookups, calls.rules := lookups.calls })
  | .embedding text _, b =>
    let (r, s) := b.embedding.take (queryIsAbout text)
    (r, { b with embedding := s, calls.embedding := b.calls.embedding + 1 })
  | .search _ filters _ minSimilarity _, b =>
    let b := { b with calls.search := b.calls.search + 1 }
    match b.search.answers with
    | some (.error e) :: rest => (.error e, { b with search.answers := rest })
    | _ =>
      match b.search.fault with
      | some e => (.error e, b)
      | none => (.ok (b.found filters minSimilarity), b)
  | .completion messages options _, b =>
    let isAbout := promptIsAbout messages
    let failing := (b.model.get (b.model.codeOf isAbout)).fault.isSome
    let (r, s) := b.model.take isAbout
    (r.map fun text => ⟨text, b.modelName, some usage⟩,
      { b with
        model := s
        calls.model := b.calls.model + 1
        optionsUsed := if failing then b.optionsUsed else b.optionsUsed ++ [options] })
  | .pause _, b => ((), b)
  | .count c, b => ((), { b with counters := b.counters.count c })
  | .saveLog log, b => b.write .saveReasoningLog fun s => { s with logs := s.logs ++ [log] }
  | .saveCitations cs, b =>
    b.write .saveCitations fun s => { s with citations := s.citations ++ cs }
  | .saveResult r, b =>
    b.write .saveEligibilityResult fun s => { s with results := s.results ++ [r] }
  | .requestReview caseId reason, b =>
    b.write .requestHumanReview fun s => { s with reviews := s.reviews ++ [(caseId, reason)] }
  | .markEvaluated caseId, b =>
    b.write .markCaseEvaluated fun s => { s with evaluated := s.evaluated ++ [caseId] }

def environment : Environment Call.interface Bench := ⟨onTheSpot, wait, reply⟩

end Bench

abbrev BenchWorld := World Call.interface Bench

end VisaEligibility
