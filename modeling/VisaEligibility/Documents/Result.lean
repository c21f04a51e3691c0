import VisaEligibility.Check.Record
/-!
Stored results. A result without a log is stored with an empty place for one, and a place that is
empty or holds an empty text reads as no log.
-/
set_option autoImplicit false

namespace VisaEligibility

structure ResultDocument where
  resultId : String
  caseId : String
  visaTypeId : String
  ruleVersionId : String
  conclusion : Conclusion
  confidence : Number
  reasoningSummary : Text.Units
  missingFacts : List String
  reasoningLogId : Option String
  aiUnavailable : Bool
  conflictDetected : Bool
  escalated : Bool
  createdAt : Instant
deriving DecidableEq, Repr, Inhabited

namespace EligibilityResult

def toDocument (r : EligibilityResult) : ResultDocument :=
  { resultId := r.id
    caseId := r.caseId
    visaTypeId := r.visaTypeId
    ruleVersionId := r.ruleVersionId
    conclusion := r.conclusion
    confidence := r.confidence
    reasoningSummary := r.summary
    missingFacts := r.missingFacts
    reasoningLogId := r.reasoningLogId
    aiUnavailable := r.aiUnavailable
    conflictDetected := r.conflictDetected
    escalated := r.escalated
    createdAt := r.createdAt }

def ofDocument (d : ResultDocument) : EligibilityResult :=
  { id := d.resultId
    caseId := d.caseId
    visaTypeId := d.visaTypeId
    ruleVersionId := d.ruleVersionId
    conclusion := d.conclusion
    confidence := d.confidence
    summary := d.reasoningSummary
    missingFacts := d.missingFacts
    reasoningLogId := d.reasoningLogId.filter fun s => !s.isEmpty
    aiUnavailable := d.aiUnavailable
    conflictDetected := d.conflictDetected
    escalated := d.escalated
    createdAt := d.createdAt }

end EligibilityResult

namespace ResultDocument

def toValue (d : ResultDocument) : Value :=
  .record [("result_id", .text d.resultId), ("case_id", .text d.caseId),
    ("visa_type_id", .text d.visaTypeId), ("rule_version_id", .text d.ruleVersionId),
    ("outcome", d.conclusion.toValue), ("confidence", .number d.confidence),
    ("reasoning_summary", .text d.reasoningSummary.toString),
    ("missing_facts", .texts d.missingFacts),
    ("reasoning_log_id", (d.reasoningLogId.map Value.text).getD .null),
    ("ai_unavailable", .bool d.aiUnavailable), ("conflict_detected", .bool d.conflictDetected),
    ("escalated", .bool d.escalated), ("created_at", .date d.createdAt)]

def ofValue (v : Value) : ResultDocument :=
  { resultId := v.textAt "result_id"
    caseId := v.textAt "case_id"
    visaTypeId := v.textAt "visa_type_id"
    ruleVersionId := v.textAt "rule_version_id"
    conclusion := Conclusion.ofValue (v.field "outcome")
    confidence := v.numberAt "confidence"
    reasoningSummary := .ofString (v.textAt "reasoning_summary")
    missingFacts := v.textsAt "missing_facts"
    reasoningLogId := (v.field "reasoning_log_id").text?
    aiUnavailable := v.flagAt "ai_unavailable"
    conflictDetected := v.flagAt "conflict_detected"
    escalated := v.flagAt "escalated"
    createdAt := v.dateAt "created_at" }

end ResultDocument
end VisaEligibility
