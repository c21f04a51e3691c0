import VisaEligibility.Clock.Limit
/-!
Shutting down: cleanup operations run one after the other in the order they were registered. One
that fails or exceeds its own limit is noted and the next one follows; the whole is under a limit.
-/
set_option autoImplicit false

namespace VisaEligibility.Clock

inductive Settling where
  | atOnce
  | after (t : Time)
  | never
deriving DecidableEq, Repr

structure Cleanup where
  name : String
  settling : Settling
  succeeds : Bool
  timeout : Option Number := none
deriving DecidableEq, Repr

/-- How an operation ends under its own limit: when, and whether it has succeeded. -/
inductive Ending where
  | atOnce (succeeded : Bool)
  | at (t : Time) (succeeded : Bool)
  | never
deriving DecidableEq, Repr

namespace Cleanup

/-- The limit of an operation of its own. A timeout of zero, or one that is no number, sets none. -/
def limit (o : Cleanup) : Option Time :=
  match o.timeout with
  | some ms => if ms.isZero || ms.isNaN then none else some (duration ms)
  | none => none

def ending (o : Cleanup) (start : Time) : Ending :=
  match o.settling, o.limit with
  | .atOnce, _ => .atOnce o.succeeds
  | .after t, none => .at (start + t) o.succeeds
  | .after t, some l =>
    if (start + t).le (start + l) then .at (start + t) o.succeeds else .at (start + l) false
  | .never, none => .never
  | .never, some l => .at (start + l) false

end Cleanup

/-- What a shutdown did: the operations started with their times, and, unless the limit came first,
the names of those that failed, at the time of its end. -/
structure ShutdownRun where
  started : List (String × Time)
  failed : Option (List String)
  time : Time
deriving DecidableEq, Repr

namespace ShutdownRun

def starting (name : String) (time : Time) (r : ShutdownRun) : ShutdownRun :=
  { r with started := (name, time) :: r.started }

def failing (name : String) (succeeded : Bool) (r : ShutdownRun) : ShutdownRun :=
  { r with failed := if succeeded then r.failed else r.failed.map (name :: ·) }

/-- Runs operations from a time on. At the limit itself only the operation started before the limit
began to count, the first one, still counts. -/
def run (limit : Time) (first : Bool) (time : Time) : List Cleanup → ShutdownRun
  | [] => ⟨[], some [], time⟩
  | o :: os =>
    starting o.name time <|
      match o.ending time with
      | .atOnce ok => failing o.name ok (run limit false time os)
      | .at t ok =>
        if t.lt limit || (first && t.same limit) then failing o.name ok (run limit false t os)
        else ⟨[], none, limit⟩
      | .never => ⟨[], none, limit⟩

def ofOperations (limit : Time) (os : List Cleanup) : ShutdownRun :=
  run limit true 0 os

end ShutdownRun

structure Shutdown where
  operations : List Cleanup
  limit : Number
  begun : Bool := false
deriving Repr

namespace Shutdown

def defaultLimit : Number := 30000

/-- The answer to one request to shut down: only the first one starts anything. Its times count
from the request. -/
structure Answer where
  outcome : Except Raised (List String)
  started : List (String × Time)
  elapsed : Time

/-- The answer to a request made at a time. A later request ends when it is made, so it takes the
difference of a time to itself, which for an infinite time is no number. -/
def shutdown (s : Shutdown) (now : Time) : Answer × Shutdown :=
  if s.begun then (⟨.ok [], [], now - now⟩, s)
  else
    let r := ShutdownRun.ofOperations (duration s.limit) s.operations
    let outcome : Except Raised (List String) :=
      match r.failed with
      | some names => .ok names
      | none => .error (.failure (.timeout "Graceful shutdown" (some s.limit)))
    (⟨outcome, r.started, r.time⟩, { s with begun := true })

/-- The answers to a number of requests, made together or each after the one before has ended. -/
def requests (s : Shutdown) (together : Bool) (now : Time) : Nat → List Answer × Shutdown
  | 0 => ([], s)
  | n + 1 =>
    let (a, s) := s.shutdown now
    let (as, s) := s.requests together (if together then now else now + a.elapsed) n
    (a :: as, s)

end Shutdown
end VisaEligibility.Clock
