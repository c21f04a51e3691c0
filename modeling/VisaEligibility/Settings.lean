import VisaEligibility.Coercion
/-!
Settings of the engine: decision thresholds and the policies of its remote calls.
-/
set_option autoImplicit false

namespace VisaEligibility

/-- Thresholds of confidence: from `eligible` on a case qualifies, from `review` on it goes to
review, and below `escalation` the combined verdict is escalated. -/
structure Thresholds where
  eligible : Number := .nearest (8 / 10)
  review : Number := .nearest (5 / 10)
  escalation : Number := .nearest (6 / 10)
deriving DecidableEq, Repr, Inhabited

def Thresholds.toValue (t : Thresholds) : Value :=
  .record [("eligible", .number t.eligible), ("review", .number t.review),
    ("escalation", .number t.escalation)]

def Thresholds.ofValue (v : Value) : Thresholds :=
  ⟨v.asNumberAt "eligible", v.asNumberAt "review", v.asNumberAt "escalation"⟩

/-- How often a call is repeated after the first attempt and how long each pause is, in
milliseconds. -/
structure RetryPolicy where
  maxAttempts : Number := 3
  initialDelay : Number := 1000
  maxDelay : Number := 30000
  multiplier : Number := 2
deriving DecidableEq, Repr, Inhabited

def RetryPolicy.remote : RetryPolicy :=
  { maxAttempts := 2, initialDelay := 500, maxDelay := 8000, multiplier := 2 }

def RetryPolicy.toValue (p : RetryPolicy) : Value :=
  .record [("maxAttempts", .number p.maxAttempts), ("initialDelay", .number p.initialDelay),
    ("maxDelay", .number p.maxDelay), ("multiplier", .number p.multiplier)]

/-- The given policy with the fields that a value sets; one without a value sets nothing. -/
def RetryPolicy.set (p : RetryPolicy) (v : Value) : RetryPolicy :=
  ⟨v.asNumberAt "maxAttempts" p.maxAttempts, v.asNumberAt "initialDelay" p.initialDelay,
    v.asNumberAt "maxDelay" p.maxDelay, v.asNumberAt "multiplier" p.multiplier⟩

structure CallPolicy where
  timeoutMs : Option Number
  retry : RetryPolicy := .remote
deriving DecidableEq, Repr, Inhabited

namespace CallPolicy

def embeddingTimeout : Number := 15000

def searchTimeout : Number := 10000

def modelTimeout : Number := 60000

def toValue (p : CallPolicy) : Value :=
  .record [("timeoutMs", Value.ofOption Value.number p.timeoutMs), ("retry", p.retry.toValue)]

/-- The policy that a value describes; what its pauses leave out is the general default. -/
def ofValue? (v : Value) : Option CallPolicy :=
  if v.isNullish then none
  else some ⟨(v.field "timeoutMs").number?, RetryPolicy.set {} (v.field "retry")⟩

end CallPolicy

/-- The setting that a field gives, or the kept one where there is no such field. A field that is
there without a value unsets the setting. -/
def Value.setting {α : Type} (v : Value) (key : String) (kept : α) (read : Value → α) : α :=
  if Entries.has (v.fields?.getD []) key then read (v.field key) else kept

def RetrievalSettings.defaultDimensions : Number := 1536

/-- Of a search the best `topK` chunks count, all of them if no number is set, as far as they are
similar enough, none of them if no bound is set. -/
structure RetrievalSettings where
  topK : Number := 5
  minSimilarity : Number := .nearest (7 / 10)
  embeddingDimensions : Option Number := some RetrievalSettings.defaultDimensions
  embedding : Option CallPolicy := some { timeoutMs := some CallPolicy.embeddingTimeout }
  search : Option CallPolicy := some { timeoutMs := some CallPolicy.searchTimeout }
deriving DecidableEq, Repr, Inhabited

namespace RetrievalSettings

def toValue (s : RetrievalSettings) : Value :=
  .record [("topK", .number s.topK), ("minSimilarity", .number s.minSimilarity),
    ("embeddingDimensions", Value.ofOption Value.number s.embeddingDimensions),
    ("embedding", Value.ofOption CallPolicy.toValue s.embedding),
    ("search", Value.ofOption CallPolicy.toValue s.search)]

/-- The number of chunks that a value admits; without a value there is no bound. -/
def countOfValue : Value → Number
  | .undefined => .infinite false
  | v => v.asNumber

def set (s : RetrievalSettings) (v : Value) : RetrievalSettings :=
  { topK := v.setting "topK" s.topK countOfValue
    minSimilarity := v.setting "minSimilarity" s.minSimilarity Value.asNumber
    embeddingDimensions := v.setting "embeddingDimensions" s.embeddingDimensions Value.number?
    embedding := v.setting "embedding" s.embedding CallPolicy.ofValue?
    search := v.setting "search" s.search CallPolicy.ofValue? }

end RetrievalSettings

def ReasoningSettings.defaultTemperature : Number := 0

def ReasoningSettings.defaultMaxTokens : Number := 1200

/-- Without context the confidence of the model is capped, unless no cap is set. -/
structure ReasoningSettings where
  temperature : Option Number := some ReasoningSettings.defaultTemperature
  maxTokens : Option Number := some ReasoningSettings.defaultMaxTokens
  noContextConfidenceCap : Number := .nearest (5 / 10)
  model : Option CallPolicy := some { timeoutMs := some CallPolicy.modelTimeout }
deriving DecidableEq, Repr, Inhabited

namespace ReasoningSettings

def toValue (s : ReasoningSettings) : Value :=
  .record [("temperature", Value.ofOption Value.number s.temperature),
    ("maxTokens", Value.ofOption Value.number s.maxTokens),
    ("noContextConfidenceCap", .number s.noContextConfidenceCap),
    ("model", Value.ofOption CallPolicy.toValue s.model)]

def set (s : ReasoningSettings) (v : Value) : ReasoningSettings :=
  { temperature := v.setting "temperature" s.temperature Value.number?
    maxTokens := v.setting "maxTokens" s.maxTokens Value.number?
    noContextConfidenceCap := v.setting "noContextConfidenceCap" s.noContextConfidenceCap
      Value.asNumber
    model := v.setting "model" s.model CallPolicy.ofValue? }

end ReasoningSettings

structure EngineSettings where
  thresholds : Thresholds := {}
  retrieval : RetrievalSettings := {}
  reasoning : ReasoningSettings := {}
  aiReasoningEnabled : Bool := true
deriving DecidableEq, Repr, Inhabited

def EngineSettings.toValue (s : EngineSettings) : Value :=
  .record [("thresholds", s.thresholds.toValue), ("retrieval", s.retrieval.toValue),
    ("reasoning", s.reasoning.toValue), ("aiReasoningEnabled", .bool s.aiReasoningEnabled)]

end VisaEligibility
