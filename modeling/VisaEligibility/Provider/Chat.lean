import VisaEligibility.Check.Call
import VisaEligibility.Configuration.Basic
import VisaEligibility.Provider.Client
/-!
Completions from a chat service: the request that is sent and how its reply is read. The answer is
the trimmed content of the first choice; an empty one is a failure of the service.
-/
set_option autoImplicit false

namespace VisaEligibility.Provider

structure ChatSettings where
  apiKey : Option String := none
  model : Option String := some ({} : ModelSettings).chatModel
deriving DecidableEq, Repr

structure ChatOptions where
  model : Option String := none
  temperature : Option Number := none
  maxTokens : Option Number := none
deriving DecidableEq, Repr

structure ChatRequest where
  model : String
  messages : List Message
  temperature : Number
  maxTokens : Option Number
deriving DecidableEq, Repr

def ChatRequest.toValue (r : ChatRequest) : Value :=
  .record [("model", .text r.model), ("messages", .list (r.messages.map (·.toValue))),
    ("temperature", .number r.temperature), ("max_tokens", Value.ofOption Value.number r.maxTokens)]

namespace Chat

def fallbackModel : String := ({} : ModelSettings).chatModel

def filled (s : Option String) : Option String := s.filter fun t => !t.isEmpty

/-- The request for a completion; a limit of tokens that is zero or no number is left out. -/
def request (s : ChatSettings) (messages : List Message) (o : ChatOptions) : ChatRequest :=
  { model := ((filled o.model).or (filled s.model)).getD fallbackModel
    messages
    temperature := o.temperature.getD 0
    maxTokens := o.maxTokens.filter fun n => !n.isNaN && !n.isZero }

def prepare (hasClient : Bool) (s : ChatSettings) (messages : List Message) (o : ChatOptions) :
    Except Failure ChatRequest :=
  if isConfigured hasClient s.apiKey then .ok (request s messages o)
  else .error (notConfigured "OpenAI is")

def emptyAnswer (r : ChatRequest) : Failure :=
  .externalService "OpenAI" "Empty response from OpenAI"
    [("reason", .text "empty_response"), ("provider", .text name), ("model", .text r.model)]

/-- The content of the first choice, `none` where there is no choice, message or content. -/
def content? (reply : Value) : Except Failure (Option String) :=
  match reply.field "choices" with
  | .list choices =>
    match ((choices.headD .undefined).field "message").field "content" with
    | .text s => .ok (some s)
    | .null | .undefined => .ok none
    | _ => .error malformedReply
  | _ => .error malformedReply

def usage? (reply : Value) : Option TokenUsage :=
  let u := reply.field "usage"
  if u.truthy then
    some ⟨u.numberAt "prompt_tokens", u.numberAt "completion_tokens", u.numberAt "total_tokens"⟩
  else none

def read (r : ChatRequest) (reply : Value) : Except Failure ModelAnswer := do
  match filled ((← content? reply).map Text.trim) with
  | some text => return ⟨text, reply.textAt "model", usage? reply⟩
  | none => .error (emptyAnswer r)

end Chat
end VisaEligibility.Provider
