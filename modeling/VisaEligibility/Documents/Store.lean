import VisaEligibility.Documents.Fact
import VisaEligibility.Documents.Log
import VisaEligibility.Documents.Query
import VisaEligibility.Documents.Result
import VisaEligibility.Documents.RuleVersion
import VisaEligibility.Health
import VisaEligibility.Program.Retry
/-!
The document store behind the engine: the calls it takes, the connection, and what the
engine does with it. Nothing is asked of the store before it is connected. A review is opened before
the case is moved into review.
-/
set_option autoImplicit false

namespace VisaEligibility.Documents

/-- A call on the store. A ping may be made under a time limit. -/
inductive StoreCall where
  | connect
  | close
  | ping (limit : Option Number)
  | find (c : Collection) (conditions : List Condition) (sort : SortKeys) (limit : Option Number)
  | insertOne (c : Collection) (document : Value)
  | insertMany (c : Collection) (documents : List Value)
  | setFields (c : Collection) (conditions : List Condition) (fields : List (String × Value))
  | createIndex (c : Collection) (index : Index)
  | pause (ms : Number)
  | now

namespace StoreCall

/-- An update replies with the number of documents that met its conditions. -/
def Reply : StoreCall → Type
  | connect => Except Raised Unit
  | close => Except Raised Unit
  | ping _ => Except Raised Unit
  | find _ _ _ _ => Except Raised (List Value)
  | insertOne _ _ => Except Raised Unit
  | insertMany _ _ => Except Raised Unit
  | setFields _ _ _ => Except Raised Number
  | createIndex _ _ => Except Raised Unit
  | pause _ => Unit
  | now => Instant

abbrev interface : Interface := ⟨StoreCall, Reply⟩

def method : StoreCall → String
  | connect => "connect"
  | close => "close"
  | ping _ => "command"
  | find _ _ _ _ => "find"
  | insertOne _ _ => "insertOne"
  | insertMany _ _ => "insertMany"
  | setFields _ _ _ => "updateOne"
  | createIndex _ _ => "createIndex"
  | pause _ => "pause"
  | now => "now"

def collection? : StoreCall → Option Collection
  | find c _ _ _ => some c
  | insertOne c _ => some c
  | insertMany c _ => some c
  | setFields c _ _ => some c
  | createIndex c _ => some c
  | _ => none

def arguments (database : String) : StoreCall → List (String × Value)
  | ping _ => [("args", .list [.record [("ping", .number 1)]]), ("db", .text database)]
  | find _ conditions sort limit =>
    [("filter", Condition.filter conditions), ("sort", sort.toValue),
      ("limit", Value.ofOption Value.number limit)]
  | insertOne _ d => [("args", .list [d])]
  | insertMany _ ds => [("args", .list [.list ds, .record [("ordered", .bool true)]])]
  | setFields _ conditions fields =>
    [("args", .list [Condition.filter conditions, .record [("$set", .record fields)]])]
  | createIndex _ i =>
    [("args", .list (i.keys.toValue ::
      if i.unique then [.record [("unique", .bool true)]] else []))]
  | _ => []

def toValue (database : String) (c : StoreCall) : Value :=
  .record ([("method", .text c.method),
    ("collection", Value.ofOption (fun k => .text k.name) c.collection?)] ++ c.arguments database)

end StoreCall

abbrev StoreTask (α : Type) := Program StoreCall.interface α

abbrev Storage (α : Type) := Attempt StoreCall.interface Raised α

structure Connection where
  opened : Bool := false
deriving DecidableEq, Repr

def perform (c : StoreCall) : StoreTask (StoreCall.Reply c) :=
  Program.perform (I := StoreCall.interface) c

namespace Connection

def notOpened : Failure := .general "Database not initialized. Call connectDB() first."

def require (c : Connection) : Except Raised Unit :=
  if c.opened then .ok () else .error (.failure notOpened)

/-- Closes a client that could not connect; whether that fails does not matter. -/
def abandon (e : Raised) : StoreTask (Except Raised Unit) := do
  let _ ← perform .close
  return .error e

/-- One attempt to connect, which ends with a ping. -/
def attemptOnce : StoreTask (Except Raised Unit) := do
  match ← perform .connect with
  | .error e => abandon e
  | .ok () =>
    match ← perform (.ping none) with
    | .error e => abandon e
    | .ok () => return .ok ()

def retryPolicy : RetryPolicy := { maxAttempts := 5, initialDelay := 1000, maxDelay := 10000 }

def connect (c : Connection) : StoreTask (Except Raised Unit × Connection) := do
  if c.opened then return (.ok (), c)
  else
    match ← retryPolicy.rule.run (fun ms => perform (.pause ms)) attemptOnce with
    | .ok () => return (.ok (), ⟨true⟩)
    | .error e => return (.error e, c)

/-- Closes the connection; it is gone even if closing fails. -/
def close (c : Connection) : StoreTask (Except Raised Unit × Connection) := do
  if c.opened then return (← perform .close, ⟨false⟩)
  else return (.ok (), c)

def health (c : Connection) (limit : Number) : StoreTask (Except Failure Health) := do
  if c.opened then return Health.ofReply (← perform (.ping (some limit)))
  else return .ok (.absent "Database not initialized")

def pingName : String := "MongoDB ping"

end Connection

namespace Storage

def call {α : Type} (c : Connection) (task : StoreTask (Except Raised α)) : Storage α := ExceptT.mk do
  match c.require with
  | .error e => return .error e
  | .ok () => task

def ofCase (caseId : String) : Condition := .equals "case_id" (.text caseId)

def facts (c : Connection) (caseId : String) : Storage Facts := do
  let ds ← call c (perform (.find .caseFacts [ofCase caseId]
    [("created_at", .ascending), ("_id", .ascending)] none))
  return Facts.ofDocuments (ds.map .ofValue)

def inForce (visaTypeId : String) (asOf : Instant) : List Condition :=
  [.equals "visa_type_id" (.text visaTypeId), .equals "published" (.bool true),
    .atMost "effective_from" asOf,
    .either (.equals "effective_to" .null) (.atLeast "effective_to" asOf)]

def activeRuleVersions (c : Connection) (visaTypeId : String) (asOf : Instant) :
    Storage (List RuleVersion) := do
  let ds ← call c (perform (.find .ruleVersions (inForce visaTypeId asOf)
    [("created_at", .descending)] none))
  return ds.filterMap RuleVersion.ofDocument?

def saveResult (c : Connection) (r : EligibilityResult) : Storage Unit :=
  call c (perform (.insertOne .results r.toDocument.toValue))

def defaultLimit : Number := 100

def results (c : Connection) (caseId : String) (limit : Number) :
    Storage (List EligibilityResult) := do
  let ds ← call c (perform (.find .results [ofCase caseId]
    [("created_at", .descending), ("_id", .descending)] (some limit)))
  return ds.map fun d => EligibilityResult.ofDocument (.ofValue d)

def saveLog (c : Connection) (l : ReasoningLog) : Storage Unit :=
  call c (perform (.insertOne .reasoningLogs l.document))

def timeOr (time : Option Instant) : Storage Instant :=
  match time with
  | some t => return t
  | none => ExceptT.lift (perform .now)

def saveCitations (c : Connection) (cs : List Citation) (time : Option Instant) :
    Storage Unit := do
  let createdAt ← timeOr time
  if cs.isEmpty then return ()
  else call c (perform (.insertMany .citations (cs.map fun x => x.document createdAt)))

def openReview (c : Connection) (r : ReviewRequest) : Storage Unit :=
  call c (perform (.insertOne .reviews r.document))

/-- Sets the status of a case and tells how many cases there were to set it on. -/
def setStatus (c : Connection) (caseId : String) (s : CaseStatus) (time : Instant) :
    Storage Number :=
  call c (perform (.setFields .cases [ofCase caseId] (s.fields time)))

def unknownCase (caseId : String) : Failure := .notFound .notFound "Case" (some caseId) []

def markEvaluated (c : Connection) (caseId : String) (time : Option Instant) : Storage Unit := do
  let matched ← setStatus c caseId .evaluated (← timeOr time)
  if matched.isZero then throw (.failure (unknownCase caseId))

def markInReview (c : Connection) (caseId : String) (time : Option Instant) : Storage Unit := do
  let _ ← setStatus c caseId .inReview (← timeOr time)

def requestReview (c : Connection) (caseId reason : String) : Storage Unit := do
  let time ← timeOr none
  openReview c ⟨caseId, reason, time⟩
  markInReview c caseId (some time)

def makeIndexes (c : Connection) (k : Collection) : Storage Unit :=
  k.indexes.forM fun i => call c (perform (.createIndex k i))

/-- Makes the indexes of all collections; a failure in one does not keep the others from theirs. -/
def makeAllIndexes (c : Connection) : Storage Unit := ExceptT.mk do
  let outcomes ← Collection.indexed.mapM fun k => (makeIndexes c k).run
  return (outcomes.find? fun r => r.toOption.isNone).getD (.ok ())

end Storage
end VisaEligibility.Documents
