import VisaEligibility.Failure.Basic
/-!
The response that reports what was raised. The message of an operational failure, or of one with
a status below 500, is shown; any other is withheld.
-/
set_option autoImplicit false

namespace VisaEligibility

/-- An error response; the time of writing is left to the caller. -/
structure ErrorReport where
  error : String
  code : String
  message : String
  status : Number
  path : String
  context : Option Value := none
  hasStack : Bool := false
deriving Repr

namespace ErrorReport

def title (status : Number) : String :=
  if status = 400 then "Bad Request"
  else if status = 404 then "Not Found"
  else if status = 500 then "Internal Server Error"
  else if status = 502 then "Bad Gateway"
  else if status = 503 then "Service Unavailable"
  else if Number.le 500 status then "Internal Server Error"
  else "Error"

/-- Whether a failure is the refusal of a request body: a status from 400 to 499 and a type. -/
def refusesBody (f : Failure) : Bool :=
  match f.property "status", f.property "type" with
  | .number s, .text _ => Number.le 400 s && s.lt 500
  | _, _ => false

def malformedBody (path : String) : ErrorReport :=
  { error := title 400, code := "BAD_REQUEST", message := "Malformed request body",
    status := 400, path }

def unexpected (path : String) (hasStack : Bool) : ErrorReport :=
  { error := title 500, code := "INTERNAL_SERVER_ERROR",
    message := Raised.unexpectedMessage, status := 500, path, hasStack }

def ofRaised (r : Raised) (path : String) (includeStack : Bool := false) : ErrorReport :=
  match r with
  | .failure f =>
    if f.isApplication then
      { error := title f.status
        code := f.code
        message := if f.isOperational || f.status.lt 500 then f.message
          else Raised.unexpectedMessage
        status := f.status
        path
        context := if f.isOperational then f.context? else none
        hasStack := includeStack }
    else if refusesBody f then malformedBody path
    else unexpected path includeStack
  | .value _ => unexpected path false

def toFields (e : ErrorReport) : List (String × Value) :=
  [("error", .text e.error), ("code", .text e.code), ("message", .text e.message),
    ("statusCode", .number e.status), ("path", .text e.path),
    ("context", Value.ofOption id e.context)]

end ErrorReport
end VisaEligibility
