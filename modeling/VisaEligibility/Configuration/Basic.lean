import VisaEligibility.Configuration.Variables
import VisaEligibility.Failure.Basic
import VisaEligibility.Settings
/-!
The configuration read from the environment. All faults found are reported together. A configuration
once read is kept: later changes of the environment do not reach it.
-/
set_option autoImplicit false

namespace VisaEligibility

inductive RunMode where
  | development
  | production
  | test
deriving DecidableEq, Repr

namespace RunMode

def name : RunMode → String
  | development => "development"
  | production => "production"
  | test => "test"

def all : List RunMode := [development, production, test]

def ofName? (s : String) : Option RunMode := all.find? fun m => m.name == s

end RunMode

structure DocumentStoreSettings where
  uri : String := "mongodb://localhost:27017"
  database : String := "visa_eligibility"
  maxPoolSize : Number := 10
  connectTimeout : Number := 10000
  selectionTimeout : Number := 10000
deriving DecidableEq, Repr, Inhabited

structure VectorStoreSettings where
  host : String := "localhost"
  port : Number := 5432
  database : String := "visa_eligibility"
  user : String := "postgres"
  password : String := "postgres"
  maxPoolSize : Number := 10
  schemaName : String := "vector"
deriving DecidableEq, Repr, Inhabited

structure ModelSettings where
  apiKey : Option String := none
  enabled : Bool := true
  chatModel : String := "gpt-4o-mini"
  embeddingModel : String := "text-embedding-ada-002"
deriving DecidableEq, Repr, Inhabited

structure SearchSettings where
  topK : Number := ({} : RetrievalSettings).topK
  minSimilarity : Number := ({} : RetrievalSettings).minSimilarity
  embeddingDimensions : Number := RetrievalSettings.defaultDimensions
  embeddingTimeout : Number := CallPolicy.embeddingTimeout
  searchTimeout : Number := CallPolicy.searchTimeout
deriving DecidableEq, Repr, Inhabited

structure AnswerSettings where
  temperature : Number := ReasoningSettings.defaultTemperature
  maxTokens : Number := ReasoningSettings.defaultMaxTokens
  noContextConfidenceCap : Number := ({} : ReasoningSettings).noContextConfidenceCap
  modelTimeout : Number := CallPolicy.modelTimeout
deriving DecidableEq, Repr, Inhabited

structure Configuration where
  mode : RunMode := .development
  port : Number := 4000
  documents : DocumentStoreSettings := {}
  vectors : VectorStoreSettings := {}
  models : ModelSettings := {}
  retry : RetryPolicy := .remote
  thresholds : Thresholds := {}
  search : SearchSettings := {}
  answers : AnswerSettings := {}
  logLevel : Option String := none
deriving DecidableEq, Repr

inductive ConfigurationFault where
  | invalid (name shown demand : String)
  | reviewAboveEligible
deriving DecidableEq, Repr

namespace ConfigurationFault

def message : ConfigurationFault → String
  | invalid name shown demand => name ++ ": Invalid value \"" ++ shown ++ "\". " ++ demand
  | reviewAboveEligible =>
    "REVIEW_CONFIDENCE_THRESHOLD: Must not exceed ELIGIBLE_CONFIDENCE_THRESHOLD."

def failure (fs : List ConfigurationFault) : Failure :=
  .general ("Environment validation failed:\n" ++
    String.intercalate "\n" (fs.map fun f => "  - " ++ f.message))

end ConfigurationFault

namespace Configuration

def modeName (vs : Variables) : String := vs.text "NODE_ENV" "development"

def mode? (vs : Variables) : Option RunMode := RunMode.ofName? (modeName vs)

def read (vs : Variables) : Configuration :=
  let d : Configuration := {}
  { mode := (mode? vs).getD .development
    port := vs.wholeNumber "PORT" d.port
    documents :=
      { uri := vs.text "MONGODB_URI" d.documents.uri
        database := vs.text "DB_NAME" d.documents.database
        maxPoolSize := vs.wholeNumber "DB_MAX_POOL_SIZE" d.documents.maxPoolSize
        connectTimeout := vs.wholeNumber "DB_CONNECT_TIMEOUT_MS" d.documents.connectTimeout
        selectionTimeout :=
          vs.wholeNumber "DB_SERVER_SELECTION_TIMEOUT_MS" d.documents.selectionTimeout }
    vectors :=
      { host := vs.text "POSTGRES_HOST" d.vectors.host
        port := vs.wholeNumber "POSTGRES_PORT" d.vectors.port
        database := vs.text "POSTGRES_DB" d.vectors.database
        user := vs.text "POSTGRES_USER" d.vectors.user
        password := vs.text "POSTGRES_PASSWORD" d.vectors.password
        maxPoolSize := vs.wholeNumber "POSTGRES_POOL_MAX" d.vectors.maxPoolSize
        schemaName := vs.text "PGVECTOR_SCHEMA" d.vectors.schemaName }
    models :=
      { apiKey := vs.filled? "OPENAI_API_KEY"
        enabled := vs.flag "AI_REASONING_ENABLED" d.models.enabled
        chatModel := vs.text "AI_MODEL" d.models.chatModel
        embeddingModel := vs.text "EMBEDDING_MODEL" d.models.embeddingModel }
    retry :=
      { maxAttempts := vs.wholeNumber "AI_MAX_RETRIES" d.retry.maxAttempts
        initialDelay := vs.wholeNumber "AI_RETRY_INITIAL_DELAY_MS" d.retry.initialDelay
        maxDelay := vs.wholeNumber "AI_RETRY_MAX_DELAY_MS" d.retry.maxDelay
        multiplier := d.retry.multiplier }
    thresholds :=
      { eligible := vs.decimal "ELIGIBLE_CONFIDENCE_THRESHOLD" d.thresholds.eligible
        review := vs.decimal "REVIEW_CONFIDENCE_THRESHOLD" d.thresholds.review
        escalation := vs.decimal "ESCALATION_CONFIDENCE_THRESHOLD" d.thresholds.escalation }
    search :=
      { topK := vs.wholeNumber "RETRIEVAL_TOP_K" d.search.topK
        minSimilarity := vs.decimal "RETRIEVAL_MIN_SIMILARITY" d.search.minSimilarity
        embeddingDimensions := vs.wholeNumber "EMBEDDING_DIMENSIONS" d.search.embeddingDimensions
        embeddingTimeout := vs.wholeNumber "EMBEDDING_TIMEOUT_MS" d.search.embeddingTimeout
        searchTimeout := vs.wholeNumber "VECTOR_SEARCH_TIMEOUT_MS" d.search.searchTimeout }
    answers :=
      { temperature := vs.decimal "AI_TEMPERATURE" d.answers.temperature
        maxTokens := vs.wholeNumber "AI_MAX_TOKENS" d.answers.maxTokens
        noContextConfidenceCap :=
          vs.decimal "NO_CONTEXT_CONFIDENCE_CAP" d.answers.noContextConfidenceCap
        modelTimeout := vs.wholeNumber "MODEL_TIMEOUT_MS" d.answers.modelTimeout }
    logLevel := vs.get? "LOG_LEVEL" }

def isSchemaChar (c : Char) : Bool := c.isAlphanum || c = '_'

def faultIf (condition : Bool) (f : ConfigurationFault) : List ConfigurationFault :=
  if condition then [f] else []

def outside (low high x : Number) : Bool := x.lt low || high.lt x

def unitFault (name : String) (x : Number) : List ConfigurationFault :=
  faultIf (outside 0 1 x) (.invalid name x.text "Must be between 0 and 1.")

/-- The faults of a configuration read from the variables, in the order they are reported. -/
def faults (vs : Variables) (c : Configuration) : List ConfigurationFault :=
  let t := c.thresholds
  faultIf (mode? vs).isNone
      (.invalid "NODE_ENV" (modeName vs) "Must be development, production, or test.") ++
    faultIf (outside 1 65535 c.port)
      (.invalid "PORT" (vs.shown "PORT") "Must be between 1 and 65535.") ++
    faultIf (!c.vectors.schemaName.toList.all isSchemaChar)
      (.invalid "PGVECTOR_SCHEMA" c.vectors.schemaName
        "Only alphanumeric characters and underscores are allowed.") ++
    faultIf (c.search.embeddingDimensions.lt 1)
      (.invalid "EMBEDDING_DIMENSIONS" (vs.shown "EMBEDDING_DIMENSIONS") "Must be positive.") ++
    faultIf (c.search.topK.lt 1)
      (.invalid "RETRIEVAL_TOP_K" (vs.shown "RETRIEVAL_TOP_K") "Must be at least 1.") ++
    faultIf (outside 0 10 c.retry.maxAttempts)
      (.invalid "AI_MAX_RETRIES" (vs.shown "AI_MAX_RETRIES") "Must be between 0 and 10.") ++
    unitFault "RETRIEVAL_MIN_SIMILARITY" c.search.minSimilarity ++
    unitFault "NO_CONTEXT_CONFIDENCE_CAP" c.answers.noContextConfidenceCap ++
    unitFault "ELIGIBLE_CONFIDENCE_THRESHOLD" t.eligible ++
    unitFault "REVIEW_CONFIDENCE_THRESHOLD" t.review ++
    unitFault "ESCALATION_CONFIDENCE_THRESHOLD" t.escalation ++
    faultIf (t.eligible.lt t.review) .reviewAboveEligible

def ofVariables (vs : Variables) : Except (List ConfigurationFault) Configuration :=
  let c := read vs
  match faults vs c with
  | [] => .ok c
  | fs => .error fs

/-- The configuration kept from before, or else the one of the environment, which is kept if it is
valid. -/
def load (vs : Variables) (kept : Option Configuration) :
    Except (List ConfigurationFault) Configuration × Option Configuration :=
  match kept with
  | some c => (.ok c, some c)
  | none =>
    match ofVariables vs with
    | .ok c => (.ok c, some c)
    | .error fs => (.error fs, none)

def policy (c : Configuration) (limit : Number) : CallPolicy := ⟨some limit, c.retry⟩

/-- The settings of the engine. The model is only asked when there is a key for it. -/
def engine (c : Configuration) : EngineSettings :=
  { thresholds := c.thresholds
    retrieval :=
      { topK := c.search.topK
        minSimilarity := c.search.minSimilarity
        embeddingDimensions := some c.search.embeddingDimensions
        embedding := some (c.policy c.search.embeddingTimeout)
        search := some (c.policy c.search.searchTimeout) }
    reasoning :=
      { temperature := some c.answers.temperature
        maxTokens := some c.answers.maxTokens
        noContextConfidenceCap := c.answers.noContextConfidenceCap
        model := some (c.policy c.answers.modelTimeout) }
    aiReasoningEnabled := c.models.enabled && c.models.apiKey.isSome }

def toValue (c : Configuration) : Value :=
  .record [("NODE_ENV", .text c.mode.name), ("PORT", .number c.port),
    ("MONGODB_URI", .text c.documents.uri), ("DB_NAME", .text c.documents.database),
    ("DB_MAX_POOL_SIZE", .number c.documents.maxPoolSize),
    ("DB_CONNECT_TIMEOUT_MS", .number c.documents.connectTimeout),
    ("DB_SERVER_SELECTION_TIMEOUT_MS", .number c.documents.selectionTimeout),
    ("POSTGRES_HOST", .text c.vectors.host), ("POSTGRES_PORT", .number c.vectors.port),
    ("POSTGRES_DB", .text c.vectors.database), ("POSTGRES_USER", .text c.vectors.user),
    ("POSTGRES_PASSWORD", .text c.vectors.password),
    ("POSTGRES_POOL_MAX", .number c.vectors.maxPoolSize),
    ("PGVECTOR_SCHEMA", .text c.vectors.schemaName),
    ("OPENAI_API_KEY", Value.ofOption Value.text c.models.apiKey),
    ("AI_REASONING_ENABLED", .bool c.models.enabled), ("AI_MODEL", .text c.models.chatModel),
    ("AI_TEMPERATURE", .number c.answers.temperature),
    ("AI_MAX_TOKENS", .number c.answers.maxTokens),
    ("EMBEDDING_MODEL", .text c.models.embeddingModel),
    ("EMBEDDING_DIMENSIONS", .number c.search.embeddingDimensions),
    ("AI_MAX_RETRIES", .number c.retry.maxAttempts),
    ("AI_RETRY_INITIAL_DELAY_MS", .number c.retry.initialDelay),
    ("AI_RETRY_MAX_DELAY_MS", .number c.retry.maxDelay),
    ("EMBEDDING_TIMEOUT_MS", .number c.search.embeddingTimeout),
    ("VECTOR_SEARCH_TIMEOUT_MS", .number c.search.searchTimeout),
    ("MODEL_TIMEOUT_MS", .number c.answers.modelTimeout),
    ("RETRIEVAL_TOP_K", .number c.search.topK),
    ("RETRIEVAL_MIN_SIMILARITY", .number c.search.minSimilarity),
    ("NO_CONTEXT_CONFIDENCE_CAP", .number c.answers.noContextConfidenceCap),
    ("ELIGIBLE_CONFIDENCE_THRESHOLD", .number c.thresholds.eligible),
    ("REVIEW_CONFIDENCE_THRESHOLD", .number c.thresholds.review),
    ("ESCALATION_CONFIDENCE_THRESHOLD", .number c.thresholds.escalation),
    ("LOG_LEVEL", Value.ofOption Value.text c.logLevel)]

end Configuration
end VisaEligibility
