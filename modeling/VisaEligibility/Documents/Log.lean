import VisaEligibility.Check.Record
/-!
What is stored beside a result: the log of the model answer, its citations, a request for review and
the status of the case.
-/
set_option autoImplicit false

namespace VisaEligibility

def TokenUsage.document (u : TokenUsage) : Value :=
  .record [("prompt_tokens", .number u.prompt), ("completion_tokens", .number u.completion),
    ("total_tokens", .number u.total)]

def ReasoningLog.document (l : ReasoningLog) : Value :=
  .record [("log_id", .text l.id), ("case_id", .text l.caseId), ("prompt", .text l.prompt),
    ("response_text", .text l.responseText), ("model_name", .text l.modelName),
    ("token_usage", (l.usage.map TokenUsage.document).getD .null),
    ("created_at", .date l.createdAt)]

def Citation.document (c : Citation) (createdAt : Instant) : Value :=
  .record [("reasoning_log_id", .text c.reasoningLogId),
    ("document_version_id", .text c.excerpt.documentVersionId),
    ("excerpt", .text c.excerpt.text), ("relevance_score", .number c.excerpt.relevance),
    ("created_at", .date createdAt)]

structure ReviewRequest where
  caseId : String
  reason : String
  createdAt : Instant
deriving DecidableEq, Repr

def ReviewRequest.document (r : ReviewRequest) : Value :=
  .record [("case_id", .text r.caseId), ("reason", .text r.reason), ("status", .text "pending"),
    ("created_at", .date r.createdAt)]

inductive CaseStatus where
  | evaluated
  | inReview
deriving DecidableEq, Repr

def CaseStatus.name : CaseStatus → String
  | evaluated => "evaluated"
  | inReview => "in_review"

def CaseStatus.fields (s : CaseStatus) (time : Instant) : List (String × Value) :=
  match s with
  | evaluated =>
    [("status", .text s.name), ("evaluated_at", .date time), ("updated_at", .date time)]
  | inReview => [("status", .text s.name), ("updated_at", .date time)]

end VisaEligibility
