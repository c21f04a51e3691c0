import VisaEligibility.Failure.Transience
import VisaEligibility.Number.Power
import VisaEligibility.Program.Basic
import VisaEligibility.Settings
/-!
Repeating a call that fails. After a failure that may pass another attempt follows a pause, as long
as attempts are left; the last failure is the outcome. What cannot be reported as text ends the
attempts. A pause is what the failure asks for, or it grows by a factor with each attempt; it never
exceeds the longest one allowed.
-/
set_option autoImplicit false

namespace VisaEligibility

namespace RetryPolicy

def backoff (p : RetryPolicy) (attempt : Number) : Number :=
  (p.initialDelay.mul (p.multiplier.pow attempt)).least p.maxDelay

def delay (p : RetryPolicy) (attempt : Nat) (e : Raised) : Number :=
  match e.retryAfter? with
  | some ms => ms.least p.maxDelay
  | none => p.backoff attempt

end RetryPolicy

/-- How many attempts may follow the first, after which failures, and after which pause. -/
structure RetryRule where
  maxAttempts : Number
  isRetryable : Raised → Bool
  delay : Nat → Raised → Number

def RetryPolicy.rule (p : RetryPolicy) : RetryRule := ⟨p.maxAttempts, Raised.isTransient, p.delay⟩

namespace RetryRule

/-- The number of attempts where there is no limit. A program is finite, so it stands for a loop
that goes on for ever while the operation fails and may be repeated: there it gives up with the last
failure instead. No accepted configuration is without a limit. -/
def unlimited : Nat := 1000000

def attempts (r : RetryRule) : Nat :=
  match r.maxAttempts with
  | .nan => 0
  | .infinite s => if s then 0 else unlimited
  | x => if x.lt 0 then 0 else x.value.floor.toNat + 1

def exhausted : Failure := .general "Operation failed after retries"

/-- What is raised when no attempt is left: the last failure, unless nothing is left of it. -/
def lastRaised : Option Raised → Raised
  | some (.failure f) => .failure f
  | some (.value v) => if v.truthy then .value v else .failure exhausted
  | none => .failure exhausted

variable {I : Interface} {α : Type}

/-- Attempts from a given one on, so many being left. -/
def runFrom (r : RetryRule) (pause : Number → Program I Unit)
    (operation : Program I (Except Raised α)) (attempt : Nat) (last : Option Raised) :
    Nat → Program I (Except Raised α)
  | 0 => return .error (lastRaised last)
  | left + 1 => do
    match ← operation with
    | .ok a => return .ok a
    | .error e =>
      if !e.hasText || !r.isRetryable e || r.maxAttempts.le (.finite attempt) then
        return .error e.reported
      else
        pause (r.delay attempt e)
        runFrom r pause operation (attempt + 1) (some e) left

def run (r : RetryRule) (pause : Number → Program I Unit)
    (operation : Program I (Except Raised α)) : Program I (Except Raised α) :=
  r.runFrom pause operation 0 none r.attempts

end RetryRule
end VisaEligibility
