import VisaEligibility.Rule.Version
import VisaEligibility.Settings
import VisaEligibility.Expression.Reading
import VisaEligibility.Expression.Evaluation
/-!
Evaluating a rule version against the facts of a case. Each requirement is evaluated on its own: a
raw tree that is no expression, or an error while evaluating, stays with its requirement. The
requirements that lack facts leave the count; those in error count as not passed.
-/
set_option autoImplicit false

namespace VisaEligibility

inductive RequirementStatus where
  | passed
  | failed
  | indeterminate
  | error
deriving DecidableEq, Repr, Inhabited

namespace RequirementStatus

def name : RequirementStatus → String
  | passed => "passed"
  | failed => "failed"
  | indeterminate => "indeterminate"
  | error => "error"

def ofName? (s : String) : Option RequirementStatus :=
  [passed, failed, indeterminate, error].find? fun k => k.name == s

end RequirementStatus

structure RequirementEvaluation where
  code : String
  mandatory : Bool
  status : RequirementStatus
  missing : List String := []
  error : Option String := none
deriving DecidableEq, Repr, Inhabited

namespace RequirementEvaluation

def isEvaluable (e : RequirementEvaluation) : Bool := e.status != .indeterminate

def isPassed (e : RequirementEvaluation) : Bool := e.status == .passed

def toValue (e : RequirementEvaluation) : Value :=
  .ofFields [("code", .text e.code), ("mandatory", .bool e.mandatory),
    ("status", .text e.status.name), ("missingVariables", .texts e.missing),
    ("error", Value.ofOption Value.text e.error)]

def ofValue (v : Value) : RequirementEvaluation :=
  { code := v.textAt "code"
    mandatory := v.flagAt "mandatory"
    status := (RequirementStatus.ofName? (v.textAt "status")).getD .error
    missing := v.textsAt "missingVariables"
    error := (v.field "error").text? }

end RequirementEvaluation

def Requirement.evaluate (r : Requirement) (facts : Facts) : RequirementEvaluation :=
  match Expression.ofValue r.expression with
  | .error e => { code := r.code, mandatory := r.mandatory, status := .error, error := some e.message }
  | .ok e =>
    match e.evaluate facts with
    | .error e =>
      { code := r.code, mandatory := r.mandatory, status := .error, error := some e.message }
    | .ok (.missing ns) =>
      { code := r.code, mandatory := r.mandatory, status := .indeterminate, missing := ns }
    | .ok (.value b) =>
      { code := r.code, mandatory := r.mandatory, status := if b then .passed else .failed }

structure RuleEvaluation where
  ruleVersionId : String
  visaTypeId : String
  visaCode : String
  outcome : Outcome
  confidence : Number
  passed : Nat
  total : Nat
  missingFacts : List String
  requirementsWithMissingFacts : List String
  mandatoryMissing : List String
  evaluations : List RequirementEvaluation
  warnings : List String
deriving DecidableEq, Repr, Inhabited

/-- What the model and the readers of a result are told of an evaluation. -/
structure RuleFindings where
  outcome : Outcome
  confidence : Number
  passed : Number
  total : Number
  missingFacts : List String
  evaluations : List RequirementEvaluation
deriving DecidableEq, Repr, Inhabited

namespace RuleEvaluation

def findings (r : RuleEvaluation) : RuleFindings :=
  ⟨r.outcome, r.confidence, r.passed, r.total, r.missingFacts, r.evaluations⟩

/-- The share of requirements passed; none when nothing could be evaluated. -/
def share (passed total : Nat) : Number :=
  if total = 0 then 0 else .nearest (mkRat passed total)

/-- A mandatory requirement not passed refuses; otherwise the confidence decides, and a case whose
mandatory requirements lack facts is at best reviewed. -/
def decide (t : Thresholds) (mandatoryFailed mandatoryMissing : Bool) (confidence : Number) :
    Outcome :=
  if mandatoryFailed then .notEligible
  else if t.eligible.le confidence && !mandatoryMissing then .eligible
  else if t.review.le confidence then .requiresReview
  else .notEligible

def warningOf (e : RequirementEvaluation) : Option String :=
  if e.status = .error then
    some ("Requirement " ++ e.code ++ " could not be evaluated: " ++
      e.error.getD "unknown error")
  else none

def ofEvaluations (v : RuleVersion) (t : Thresholds) (es : List RequirementEvaluation) :
    RuleEvaluation :=
  let evaluable := es.filter (·.isEvaluable)
  let indeterminate := es.filter (!·.isEvaluable)
  let passed := (evaluable.filter (·.isPassed)).length
  let total := evaluable.length
  let confidence := share passed total
  let mandatoryMissing := (indeterminate.filter (·.mandatory)).map (·.code)
  { ruleVersionId := v.id
    visaTypeId := v.visaTypeId
    visaCode := v.visaCode
    outcome := decide t (evaluable.any fun e => e.mandatory && !e.isPassed)
      (!mandatoryMissing.isEmpty) confidence
    confidence
    passed
    total
    missingFacts := distinct (indeterminate.flatMap (·.missing))
    requirementsWithMissingFacts := indeterminate.map (·.code)
    mandatoryMissing
    evaluations := es
    warnings := (if es.isEmpty then ["Rule version " ++ v.id ++ " has no requirements"] else []) ++
      es.filterMap warningOf }

def toValue (r : RuleEvaluation) : Value :=
  .record [("ruleVersionId", .text r.ruleVersionId), ("visaTypeId", .text r.visaTypeId),
    ("visaCode", .text r.visaCode), ("outcome", .text r.outcome.name),
    ("confidence", .number r.confidence), ("passed", .nat r.passed), ("total", .nat r.total),
    ("missingFacts", .texts r.missingFacts),
    ("requirementsWithMissingFacts", .texts r.requirementsWithMissingFacts),
    ("mandatoryMissing", .texts r.mandatoryMissing),
    ("evaluations", .list (r.evaluations.map (·.toValue))), ("warnings", .texts r.warnings)]

end RuleEvaluation

namespace RuleVersion

def evaluations (v : RuleVersion) (facts : Facts) : List RequirementEvaluation :=
  v.requirements.map (·.evaluate facts)

def evaluate (v : RuleVersion) (facts : Facts) (t : Thresholds := {}) : RuleEvaluation :=
  .ofEvaluations v t (v.evaluations facts)

end RuleVersion
end VisaEligibility
