import VisaEligibility.Response.Citation
import VisaEligibility.Response.Verdict
import VisaEligibility.Text.Units
/-!
What a check stores: its result, the log of the model answer behind it and the citations in that
answer, which refer to the log.
-/
set_option autoImplicit false

namespace VisaEligibility

structure TokenUsage where
  prompt : Number
  completion : Number
  total : Number
deriving DecidableEq, Repr, Inhabited

def TokenUsage.toValue (u : TokenUsage) : Value :=
  .record [("promptTokens", .number u.prompt), ("completionTokens", .number u.completion),
    ("totalTokens", .number u.total)]

def TokenUsage.ofValue (v : Value) : TokenUsage :=
  ⟨v.numberAt "promptTokens", v.numberAt "completionTokens", v.numberAt "totalTokens"⟩

structure EligibilityResult where
  id : String
  caseId : String
  visaTypeId : String
  ruleVersionId : String
  conclusion : Conclusion
  confidence : Number
  summary : Text.Units
  missingFacts : List String
  reasoningLogId : Option String
  aiUnavailable : Bool
  conflictDetected : Bool
  escalated : Bool
  createdAt : Instant
deriving DecidableEq, Repr, Inhabited

def EligibilityResult.toFields (r : EligibilityResult) : List (String × Value) :=
  [("id", .text r.id), ("caseId", .text r.caseId), ("visaTypeId", .text r.visaTypeId),
    ("ruleVersionId", .text r.ruleVersionId), ("outcome", r.conclusion.toValue),
    ("confidence", .number r.confidence), ("reasoningSummary", .text r.summary.toString),
    ("missingFacts", .texts r.missingFacts),
    ("reasoningLogId", Value.ofOption Value.text r.reasoningLogId),
    ("aiUnavailable", .bool r.aiUnavailable), ("conflictDetected", .bool r.conflictDetected),
    ("escalated", .bool r.escalated), ("createdAt", .date r.createdAt)]

def EligibilityResult.ofValue (v : Value) : EligibilityResult :=
  { id := v.textAt "id"
    caseId := v.textAt "caseId"
    visaTypeId := v.textAt "visaTypeId"
    ruleVersionId := v.textAt "ruleVersionId"
    conclusion := Conclusion.ofValue (v.field "outcome")
    confidence := v.numberAt "confidence"
    summary := .ofString (v.textAt "reasoningSummary")
    missingFacts := v.textsAt "missingFacts"
    reasoningLogId := (v.field "reasoningLogId").text?
    aiUnavailable := v.flagAt "aiUnavailable"
    conflictDetected := v.flagAt "conflictDetected"
    escalated := v.flagAt "escalated"
    createdAt := v.dateAt "createdAt" }

structure ReasoningLog where
  id : String
  caseId : String
  prompt : String
  responseText : String
  modelName : String
  usage : Option TokenUsage
  createdAt : Instant
deriving DecidableEq, Repr, Inhabited

def ReasoningLog.toFields (l : ReasoningLog) : List (String × Value) :=
  [("id", .text l.id), ("caseId", .text l.caseId), ("responseText", .text l.responseText),
    ("modelName", .text l.modelName), ("tokenUsage", Value.ofOption TokenUsage.toValue l.usage),
    ("createdAt", .date l.createdAt)]

def ReasoningLog.ofValue (v : Value) : ReasoningLog :=
  { id := v.textAt "id"
    caseId := v.textAt "caseId"
    prompt := v.textAt "prompt"
    responseText := v.textAt "responseText"
    modelName := v.textAt "modelName"
    usage := v.at? TokenUsage.ofValue "tokenUsage"
    createdAt := v.dateAt "createdAt" }

structure Citation where
  reasoningLogId : String
  excerpt : Excerpt
deriving DecidableEq, Repr, Inhabited

def Excerpt.toFields (e : Excerpt) : List (String × Value) :=
  [("documentVersionId", .text e.documentVersionId), ("excerpt", .text e.text),
    ("relevanceScore", .number e.relevance)]

def Citation.toFields (c : Citation) : List (String × Value) :=
  ("reasoningLogId", .text c.reasoningLogId) :: c.excerpt.toFields

def Citation.ofValue (v : Value) : Citation :=
  ⟨v.textAt "reasoningLogId", v.textAt "documentVersionId", v.textAt "excerpt",
    v.numberAt "relevanceScore"⟩

end VisaEligibility
