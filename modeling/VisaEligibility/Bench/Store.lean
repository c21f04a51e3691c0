import VisaEligibility.Check.Record
import VisaEligibility.Failure.Basic
import VisaEligibility.Sorting
/-!
In-memory stores and the faults they can be set to. A store fails as a whole or in one operation;
the fault of the operation comes first. A write that fails stores nothing.
-/
set_option autoImplicit false

namespace VisaEligibility.Bench

inductive Store where
  | facts
  | rules
  | results
  | reasoningLogs
  | citations
  | humanReview
  | caseStatus
deriving DecidableEq, Repr

namespace Store

def name : Store → String
  | facts => "facts"
  | rules => "rules"
  | results => "results"
  | reasoningLogs => "reasoningLogs"
  | citations => "citations"
  | humanReview => "humanReview"
  | caseStatus => "caseStatus"

def all : List Store := [facts, rules, results, reasoningLogs, citations, humanReview, caseStatus]

def ofName? (s : String) : Option Store := all.find? fun k => k.name == s

end Store

inductive StoreOperation where
  | getFacts
  | findActiveRuleVersions
  | saveEligibilityResult
  | findByCaseId
  | saveReasoningLog
  | saveCitations
  | requestHumanReview
  | markCaseEvaluated
deriving DecidableEq, Repr

namespace StoreOperation

def name : StoreOperation → String
  | getFacts => "getFacts"
  | findActiveRuleVersions => "findActiveRuleVersions"
  | saveEligibilityResult => "saveEligibilityResult"
  | findByCaseId => "findByCaseId"
  | saveReasoningLog => "saveReasoningLog"
  | saveCitations => "saveCitations"
  | requestHumanReview => "requestHumanReview"
  | markCaseEvaluated => "markCaseEvaluated"

def store : StoreOperation → Store
  | getFacts => .facts
  | findActiveRuleVersions => .rules
  | saveEligibilityResult => .results
  | findByCaseId => .results
  | saveReasoningLog => .reasoningLogs
  | saveCitations => .citations
  | requestHumanReview => .humanReview
  | markCaseEvaluated => .caseStatus

end StoreOperation

structure Fault where
  store : Store
  operation : Option String
  raised : Raised
deriving Repr

/-- The faults that are set, the latest first. -/
abbrev Faults := List Fault

namespace Faults

def set (fs : Faults) (f : Fault) : Faults :=
  f :: fs.filter fun g => !(g.store = f.store && g.operation == f.operation)

def clear (fs : Faults) (s : Store) : Faults := fs.filter fun f => f.store != s

/-- Nothing is raised where `null` is set, nor where an operation is set to `undefined`. -/
def isSet (f : Fault) : Bool :=
  match f.raised, f.operation with
  | .value .null, _ => false
  | .value .undefined, some _ => false
  | _, _ => true

def of (fs : Faults) (o : StoreOperation) : Option Raised :=
  let own := (fs.filter isSet).filter fun f => f.store = o.store
  ((own.find? fun f => f.operation = some o.name).orElse fun _ =>
    own.find? fun f => f.operation.isNone).map (·.raised)

end Faults

structure Stores where
  results : List EligibilityResult := []
  logs : List ReasoningLog := []
  citations : List Citation := []
  reviews : List (String × String) := []
  evaluated : List String := []
deriving Repr, Inhabited

def Stores.write (fs : Faults) (o : StoreOperation) (change : Stores → Stores) (s : Stores) :
    Except Raised Unit × Stores :=
  match fs.of o with
  | some e => (.error e, s)
  | none => (.ok (), change s)

def Stores.resultsOf (caseId : String) (s : Stores) : List EligibilityResult :=
  Sorting.sort (fun a b => b.createdAt.lt a.createdAt)
    (s.results.filter fun r => r.caseId == caseId)

end VisaEligibility.Bench
