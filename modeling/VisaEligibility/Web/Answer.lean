import VisaEligibility.Failure.Response
import VisaEligibility.Json.Printer
/-!
Answers to requests, and the two that need no case: the state of health and the report of a failure.
-/
set_option autoImplicit false

namespace VisaEligibility.Web

inductive Content where
  | json (value : Value)
  | text (text : String)
  | lines (lines : List String)
deriving Repr

structure Answer where
  status : Number
  contentType : String
  content : Content
deriving Repr

namespace Answer

def json (status : Number) (v : Value) : Answer :=
  ⟨status, "application/json; charset=utf-8", .json (Json.plain v)⟩

def methods (names : List String) : Answer :=
  ⟨200, "text/html; charset=utf-8", .text (String.intercalate "," names)⟩

def lines (ls : List String) : Answer :=
  ⟨200, "text/plain; charset=utf-8; version=0.0.4", .lines ls⟩

/-- An answer as it is sent: to `HEAD` without content. -/
def sentTo (method : String) (a : Answer) : Answer :=
  if method == "HEAD" then { a with content := .text "" } else a

def ofError (e : ErrorReport) (now : Instant) : Answer :=
  json e.status (.record (e.toFields ++ [("timestamp", .date now)]))

def ofRaised (r : Raised) (path : String) (now : Instant) : Answer :=
  ofError (.ofRaised r path) now

end Answer

abbrev HealthChecks := List (String × Except Raised Value)

namespace HealthChecks

def status (r : Except Raised Value) : Except Raised Value :=
  match r with
  | .ok v => .ok v
  | .error e =>
    match e.text with
    | .ok text => .ok (.record [("healthy", .bool false), ("error", .text text)])
    | .error f => .error (.failure f)

/-- A finding without fields cannot be asked whether all is well. -/
def isHealthy (v : Value) : Except Raised Bool :=
  if v.isNullish then .error (.failure ⟨.type, "", []⟩) else .ok (v.field "healthy").truthy

/-- Whether all findings are good; those behind the first bad one are not looked at. -/
def allHealthy : List Value → Except Raised Bool
  | [] => .ok true
  | v :: vs => do if ← isHealthy v then allHealthy vs else return false

def answer (cs : HealthChecks) (now : Instant) : Except Raised Answer := do
  let found ← cs.mapM fun c => return (c.1, ← status c.2)
  let healthy ← allHealthy (found.map Prod.snd)
  return .json (if healthy then 200 else 503)
    (.record [("status", .text (if healthy then "ok" else "degraded")),
      ("timestamp", .date now), ("checks", .record found)])

end HealthChecks
end VisaEligibility.Web
