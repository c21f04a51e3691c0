import VisaEligibility.Failure.Basic
import VisaEligibility.Json.Printer
import VisaEligibility.Logging.Level
/-!
Log lines. A line holds the fields of its logger and of the loggers above it, then the context of
the request, then its own fields and last its message; of two fields with one name the later counts.
-/
set_option autoImplicit false

namespace VisaEligibility

/-- The context of the request that is being handled, empty outside of any. -/
abbrev LogContext := List (String × Value)

structure Logger where
  level : LogLevel
  bindings : List (String × Value)
deriving Repr

namespace Logger

def serviceName : String := "visa-eligibility-engine"

def create (vs : Variables) (level : LogLevel) : Logger :=
  ⟨level, [("env", .text (vs.text "NODE_ENV" "development")), ("service", .text serviceName)]⟩

def reservedKeys : List String := ["level", "serializers", "formatters", "customLevels"]

def isDefined (f : String × Value) : Bool :=
  match f.2 with
  | .undefined => false
  | _ => true

def child (l : Logger) (more : List (String × Value)) : Logger :=
  let kept := more.filter fun f => isDefined f && !reservedKeys.contains f.1
  { l with bindings := Entries.merge l.bindings kept }

def unknownLevel (level : String) : Failure :=
  .general ("default level:" ++ level ++ " must be included in custom levels")

def fields (l : Logger) (context : LogContext) (level : LogLevel) (own : List (String × Value))
    (message : String) (time : Instant) : List (String × Value) :=
  let head := [("level", .text level.name), ("time", .date time)]
  let body := (Entries.merge context own).filter isDefined
  Entries.put (Entries.merge (Entries.merge head l.bindings) body) "msg" (.text message)

def line? (l : Logger) (context : LogContext) (level : LogLevel) (own : List (String × Value))
    (message : String) (time : Instant) : Option Value :=
  if l.level.writes level then
    some (Json.plain (.record (l.fields context level own message time)))
  else none

end Logger
end VisaEligibility
