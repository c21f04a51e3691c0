import VisaEligibility.Check.Batch
/-!
What a caller sees of a batch of checks. The prompt, the answer of the model and the states of a
check are not shown.
-/
set_option autoImplicit false

namespace VisaEligibility

def RuleEvaluation.view (r : RuleEvaluation) : Value :=
  .record [("ruleVersionId", .text r.ruleVersionId), ("outcome", .text r.outcome.name),
    ("confidence", .number r.confidence), ("passed", .nat r.passed), ("total", .nat r.total),
    ("requirements", .list (r.evaluations.map (·.toValue)))]

def CheckReport.view (r : CheckReport) : Value :=
  .record (r.result.toFields ++
    [("aiStatus", .text r.aiStatus.name),
      ("aiFailure", Value.ofOption (fun s => .text s.name) r.aiFailure),
      ("escalationReasons", .texts (r.combined.reasons.map (·.name))),
      ("ruleEvaluation", r.rule.view),
      ("citations", .list (r.citations.map fun c => .record c.excerpt.toFields)),
      ("warnings", .texts r.warnings)])

def BatchReport.view (r : BatchReport) : Value :=
  .record [("caseId", .text r.caseId), ("results", .list (r.reports.map (·.view))),
    ("failures", .list (r.failures.map (·.toValue))), ("summary", r.summary.toValue)]

end VisaEligibility
