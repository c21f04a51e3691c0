import VisaEligibility.Configuration.Variables
/-!
Levels of log lines. A logger writes the lines at its level and above; a silent one writes none.
-/
set_option autoImplicit false

namespace VisaEligibility

inductive LogLevel where
  | fatal
  | error
  | warn
  | info
  | debug
  | trace
  | silent
deriving DecidableEq, Repr

namespace LogLevel

def name : LogLevel → String
  | fatal => "fatal"
  | error => "error"
  | warn => "warn"
  | info => "info"
  | debug => "debug"
  | trace => "trace"
  | silent => "silent"

def all : List LogLevel := [fatal, error, warn, info, debug, trace, silent]

def ofName? (s : String) : Option LogLevel := all.find? fun l => l.name == s

def verbosity : LogLevel → Nat
  | silent => 0
  | fatal => 1
  | error => 2
  | warn => 3
  | info => 4
  | debug => 5
  | trace => 6

def writes (own line : LogLevel) : Bool :=
  line != silent && line.verbosity ≤ own.verbosity

/-- The level that the environment asks for, or else the one usual for it. -/
def ofVariables (vs : Variables) : LogLevel :=
  match (vs.filled? "LOG_LEVEL").bind ofName? with
  | some l => l
  | none =>
    match vs.get? "NODE_ENV" with
    | some "test" => silent
    | some "production" => info
    | _ => debug

end LogLevel
end VisaEligibility
