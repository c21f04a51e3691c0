import VisaEligibility.Value
/-!
Failures: an error of a known kind with a message and named fields, or any other value that was
raised. Failures of the engine carry a code, a status and whether they are operational, that is
expected and safe to show.
-/
set_option autoImplicit false

namespace VisaEligibility

inductive FailureKind where
  | general
  | type
  | range
  | malformed
  | noPolicy
  | noText
  | noFields
  | timeout
  | application
  | notFound
  | badRequest
  | serviceUnavailable
  | externalService
  | noRuleVersion
  | evaluation
  | aiReasoning
  | embedding
  | retrieval
  | model
  | parse
  | persistence
deriving DecidableEq, Repr

namespace FailureKind

def name : FailureKind → String
  | general => "Error"
  | type => "TypeError"
  | range => "RangeError"
  | malformed => "SyntaxError"
  | noPolicy => "TypeError"
  | noText => "TypeError"
  | noFields => "TypeError"
  | timeout => "OperationTimeoutError"
  | application => "AppError"
  | notFound => "NotFoundError"
  | badRequest => "BadRequestError"
  | serviceUnavailable => "ServiceUnavailableError"
  | externalService => "ExternalServiceError"
  | noRuleVersion => "RuleVersionNotFoundError"
  | evaluation => "EvaluationError"
  | aiReasoning => "AIReasoningFailure"
  | embedding => "EmbeddingFailure"
  | retrieval => "RetrievalFailure"
  | model => "ModelFailure"
  | parse => "ParseFailure"
  | persistence => "PersistenceFailure"

def all : List FailureKind :=
  [general, type, range, malformed, noPolicy, noText, noFields, timeout, application, notFound,
    badRequest, serviceUnavailable, externalService, noRuleVersion, evaluation, aiReasoning,
    embedding, retrieval, model, parse, persistence]

def ofName? (s : String) : Option FailureKind := all.find? fun k => k.name == s

/-- Whether the kind is one of the engine's own, with code and status. -/
def isApplication : FailureKind → Bool
  | general | type | range | malformed | noPolicy | noText | noFields | timeout => false
  | _ => true

end FailureKind

/-- The stage of the reasoning path that failed. -/
inductive AiStage where
  | embedding
  | retrieval
  | model
deriving DecidableEq, Repr

namespace AiStage

def name : AiStage → String
  | embedding => "embedding"
  | retrieval => "retrieval"
  | model => "model"

def kind : AiStage → FailureKind
  | embedding => .embedding
  | retrieval => .retrieval
  | model => .model

def code : AiStage → String
  | embedding => "EMBEDDING_FAILURE"
  | retrieval => "RETRIEVAL_FAILURE"
  | model => "MODEL_FAILURE"

end AiStage

structure Failure where
  kind : FailureKind
  message : String
  fields : List (String × Value)
deriving Repr

/-- What an operation may raise. -/
inductive Raised where
  | failure (f : Failure)
  | value (v : Value)
deriving Repr

namespace Failure

def noText : Failure := ⟨.noText, "Cannot convert object to primitive value", []⟩

end Failure

namespace Raised

/-- The message of a failure; another value is shown as text. -/
def message : Raised → String
  | failure f => f.message
  | value v => v.display

def hasText : Raised → Bool
  | failure _ => true
  | value v => v.hasText

def text (r : Raised) : Except Failure String :=
  if r.hasText then .ok r.message else .error .noText

/-- What is left of something raised once it has been reported. -/
def reported (r : Raised) : Raised := if r.hasText then r else .failure .noText

end Raised

namespace Failure

/-- A failure made from the text of its cause; a cause without text fails on its own. -/
def causedBy (e : Raised) (make : String → Failure) : Failure :=
  match e.text with
  | .ok text => make text
  | .error f => f

def general (message : String) : Failure := ⟨.general, message, []⟩

def invalidTime : Failure := ⟨.range, "Invalid time value", []⟩

def timeout (operation : String) (limit : Option Number) : Failure :=
  let limit := Value.ofOption Value.number limit
  ⟨.timeout, operation ++ " timed out after " ++ limit.display ++ "ms",
    [("code", .text "ETIMEDOUT"), ("timeoutMs", limit)]⟩

def noPolicy (setting : String) : Failure :=
  ⟨.noPolicy, "Cannot destructure property 'timeoutMs' of 'this.settings." ++ setting ++
    "' as it is undefined.", []⟩

def noFields (v : Value) (key : String) : Failure :=
  ⟨.noFields, "Cannot read properties of " ++ v.display ++ " (reading '" ++ key ++ "')", []⟩

def application (kind : FailureKind) (message code : String) (status : Number)
    (operational : Bool) (context : Option (List (String × Value))) : Failure :=
  ⟨kind, message,
    [("code", .text code), ("statusCode", .number status), ("isOperational", .bool operational),
      ("context", Value.ofOption Value.ofFields context)]⟩

def notFound (kind : FailureKind) (resource : String) (identifier : Option String)
    (more : List (String × Value)) : Failure :=
  let message := match identifier with
    | some i => if i.isEmpty then resource ++ " not found"
      else resource ++ " with identifier '" ++ i ++ "' not found"
    | none => resource ++ " not found"
  application kind message "NOT_FOUND" 404 true
    (some (Entries.merge
      [("resource", .text resource), ("identifier", Value.ofOption Value.text identifier)] more))

def badRequest (message : String) (context : Option (List (String × Value))) : Failure :=
  application .badRequest message "BAD_REQUEST" 400 true context

def serviceUnavailable (message : String) (context : Option (List (String × Value))) : Failure :=
  application .serviceUnavailable message "SERVICE_UNAVAILABLE" 503 true context

def externalService (service message : String) (more : List (String × Value)) : Failure :=
  application .externalService ("External service error (" ++ service ++ "): " ++ message)
    "EXTERNAL_SERVICE_ERROR" 502 true (some (Entries.merge [("service", .text service)] more))

/-- No version of the rules is in force; the instant asked for has to be valid to be reported. -/
def noRuleVersion (visaTypeId : String) (asOf : Instant) : Failure :=
  match asOf.timestamp? with
  | some t => notFound .noRuleVersion "Active rule version" (some visaTypeId)
      [("asOf", .text t), ("retryable", .bool false)]
  | none => invalidTime

def evaluation (message : String) (context : Option (List (String × Value))) : Failure :=
  application .evaluation message "EVALUATION_ERROR" 422 true context

/-- The text a failure keeps of its cause; an undefined value is no cause. -/
def causeText (c : Raised) (text : String) : Option String :=
  match c with
  | .value .undefined => none
  | _ => some text

def aiReasoning (kind : FailureKind) (stage code message : String) (cause : Option String) :
    Failure :=
  let f := application kind message code 502 true
    (some [("kind", .text stage), ("cause", Value.ofOption Value.text cause)])
  { f with fields := f.fields ++ [("kind", .text stage)] }

def ofStage (stage : AiStage) (message : String) (cause : Option String) : Failure :=
  aiReasoning stage.kind stage.name stage.code message cause

def ofActivity (stage : AiStage) (activity : String) (e : Raised) : Failure :=
  causedBy e fun text => ofStage stage (activity ++ " failed: " ++ text) (causeText e text)

def parse (field message : String) : Failure :=
  let f := application .parse message "PARSE_FAILURE" 422 true (some [("field", .text field)])
  { f with fields := f.fields ++ [("field", .text field)] }

def persistence (entity : String) (cause : Raised) : Failure :=
  causedBy cause fun text =>
    application .persistence ("Failed to persist " ++ entity ++ ": " ++ text)
      "PERSISTENCE_FAILURE" 500 false (some [("entity", .text entity)])

def property (f : Failure) (key : String) : Value :=
  match Entries.get? f.fields key with
  | some v => v
  | none =>
    if key = "message" then .text f.message
    else if key = "name" then .text f.kind.name
    else .undefined

def isApplication (f : Failure) : Bool := f.kind.isApplication

def code (f : Failure) : String := (f.property "code").display

def status (f : Failure) : Number := ((f.property "statusCode").number?).getD .nan

def isOperational (f : Failure) : Bool := (f.property "isOperational").truthy

def context? (f : Failure) : Option Value :=
  let c := f.property "context"
  if c.truthy then some c else none

end Failure

namespace Raised

/-- A named property of what was raised; values other than records have none. -/
def property (r : Raised) (key : String) : Value :=
  match r with
  | failure f => f.property key
  | value v => v.field key

def isObject : Raised → Bool
  | failure _ => true
  | value (.record _) => true
  | value (.list _) => true
  | value (.date _) => true
  | value _ => false

def unexpectedMessage : String := "An unexpected error occurred"

/-- The failure reported for what was raised: the engine's own as they are, the others as an
internal failure that is not operational. -/
def toFailure (r : Raised) (fallback : String := unexpectedMessage) : Failure :=
  match r with
  | failure f =>
    if f.isApplication then f
    else .application .application f.message "INTERNAL_SERVER_ERROR" 500 false none
  | value _ => .application .application fallback "INTERNAL_SERVER_ERROR" 500 false none

end Raised
end VisaEligibility
