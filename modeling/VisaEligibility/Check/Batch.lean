import VisaEligibility.Check.Run
/-!
Checks of one case against several visa types. They share the facts and the lookups of one run and
are otherwise independent: a check that fails is reported and does not affect the others.
-/
set_option autoImplicit false

namespace VisaEligibility

structure BatchOptions where
  evaluationDate : Option Instant := none
  enableAi : Option Bool := none
  jurisdiction : Option String := none
deriving DecidableEq, Repr

structure BatchFailure where
  visaTypeId : String
  code : String
  message : String
deriving DecidableEq, Repr

structure BatchSummary where
  total : Nat
  succeeded : Nat
  failed : Nat
  escalated : Nat
  outcomes : List (String × Number)
deriving DecidableEq, Repr

def BatchSummary.requiresReview (s : BatchSummary) : Bool := 0 < s.escalated

structure BatchReport where
  caseId : String
  reports : List CheckReport
  failures : List BatchFailure
  summary : BatchSummary
deriving Repr

namespace Batch

def request (caseId : String) (o : BatchOptions) (asOf : Instant) (visaTypeId : String) :
    CheckRequest :=
  ⟨caseId, visaTypeId, some asOf, o.enableAi, o.jurisdiction⟩

/-- The facts and the evaluation date that the checks share. -/
def prepare (caseId : String) (o : BatchOptions) : Engine (Except Raised (Facts × Instant)) := do
  match ← Engine.facts caseId with
  | .ok facts =>
    let asOf ← match o.evaluationDate with
      | some d => pure d
      | none => Engine.now
    return .ok (facts, asOf)
  | .error e => return .error e

def checks (s : EngineSettings) (caseId : String) (o : BatchOptions) (facts : Facts)
    (asOf : Instant) (visaTypeIds : List String) : List (Engine (Except Raised CheckReport)) :=
  visaTypeIds.map fun id => Check.overFacts s (request caseId o asOf id) facts

def failureOf (visaTypeId : String) (e : Raised) : BatchFailure :=
  let f := e.toFailure
  ⟨visaTypeId, f.code, f.message⟩

def countConclusion (counts : List (String × Number)) (c : Conclusion) : List (String × Number) :=
  Entries.put counts c.display <|
    match Entries.get? counts c.display with
    | some n => n.add 1
    | none => .nan

def outcomeCounts (reports : List CheckReport) : List (String × Number) :=
  (reports.map fun r => r.result.conclusion).foldl countConclusion
    (Outcome.all.map fun o => (o.name, 0))

def report (caseId : String) (outcomes : List (String × Except Raised CheckReport)) :
    BatchReport :=
  let reports := outcomes.filterMap fun o => o.2.toOption
  let failures := outcomes.filterMap fun o =>
    match o.2 with
    | .ok _ => none
    | .error e => some (failureOf o.1 e)
  { caseId
    reports
    failures
    summary :=
      { total := outcomes.length
        succeeded := reports.length
        failed := failures.length
        escalated := (reports.filter fun r => r.result.escalated).length
        outcomes := outcomeCounts reports } }

end Batch

namespace BatchFailure

def toValue (f : BatchFailure) : Value :=
  .record [("visaTypeId", .text f.visaTypeId), ("code", .text f.code), ("message", .text f.message)]

end BatchFailure

namespace BatchSummary

def toValue (s : BatchSummary) : Value :=
  .record [("total", .nat s.total), ("succeeded", .nat s.succeeded), ("failed", .nat s.failed),
    ("escalated", .nat s.escalated), ("requiresReview", .bool s.requiresReview),
    ("outcomes", .record (s.outcomes.map fun o => (o.1, .number o.2)))]

end BatchSummary

def BatchReport.toValue (r : BatchReport) : Value :=
  .record [("caseId", .text r.caseId), ("results", .list (r.reports.map (·.toValue))),
    ("failures", .list (r.failures.map (·.toValue))), ("summary", r.summary.toValue)]

end VisaEligibility
