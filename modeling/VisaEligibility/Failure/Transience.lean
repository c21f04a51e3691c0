import VisaEligibility.Failure.Basic
/-!
Which failures are transient, so that another attempt may succeed. A status decides first, then a
network code, then words of the message.
-/
set_option autoImplicit false

namespace VisaEligibility.Raised

/-- Rate limits and server errors are transient, other client errors are not; a status outside
these ranges decides nothing. -/
def statusVerdict (v : Value) : Option Bool :=
  match v with
  | .number s =>
    if s = 429 || (Number.le 500 s && s.lt 600) then some true
    else if Number.le 400 s && s.lt 500 then some false
    else none
  | _ => none

def networkCodes : List String := ["ECONNRESET", "ETIMEDOUT", "ECONNREFUSED", "EAI_AGAIN", "EPIPE"]

def transientWords : List String :=
  ["timeout", "timed out", "connection", "network", "econnreset", "etimedout"]

def mentions (message : String) (words : List String) : Bool :=
  let m := Text.lower message
  words.any fun w => Text.contains m w

def hasCode (r : Raised) (codes : List String) : Bool :=
  match r.property "code" with
  | .text c => codes.contains c
  | _ => false

def isServiceUnavailable : Raised → Bool
  | failure f => f.kind = .serviceUnavailable
  | value _ => false

def isTransient (r : Raised) : Bool :=
  if !r.isObject || r.isServiceUnavailable then false
  else
    let statuses := [r.property "status", r.property "statusCode", (r.property "response").field "status"]
    match statuses.findSome? statusVerdict with
    | some verdict => verdict
    | none =>
      r.hasCode networkCodes ||
        match r with
        | failure f => mentions f.message transientWords
        | value _ => false

def connectionCodes : List String :=
  ["ECONNREFUSED", "ETIMEDOUT", "ENOTFOUND", "EAI_AGAIN", "57P01", "57P02", "57P03", "08003",
    "08006", "08001"]

def connectionWords : List String :=
  ["connection terminated", "timeout", "econnreset", "socket", "not connected"]

def isLostConnection : Raised → Bool
  | failure f => hasCode (.failure f) connectionCodes || mentions f.message connectionWords
  | value _ => false

def retryAfterSeconds? (headers : Value) : Option Number :=
  let header := match headers.field "retry-after" with
    | .null => headers.field "Retry-After"
    | .undefined => headers.field "Retry-After"
    | v => v
  let first := match header with
    | .list vs => vs.headD .undefined
    | v => v
  let seconds := match first with
    | .text s => Number.wholeOfStart s
    | .number x => Number.wholeOfStart x.text
    | _ => .nan
  if Number.lt 0 seconds then some seconds else none

/-- The delay in milliseconds that a failure asks for, from its own headers or its response's. -/
def retryAfter? (r : Raised) : Option Number :=
  [r.property "headers", (r.property "response").field "headers"].findSome? fun h =>
    (retryAfterSeconds? h).map (·.mul 1000)

end VisaEligibility.Raised
