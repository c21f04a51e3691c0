import VisaEligibility.Clock.Limit
import VisaEligibility.Program.Retry
/-!
Trying out a retry rule on a script of outcomes: each attempt takes the next outcome of the script,
the last one over and over, and every pause is recorded.
-/
set_option autoImplicit false

namespace VisaEligibility

inductive TrialCall where
  | attempt
  | pause (ms : Number)

def trialInterface (α : Type) : Interface where
  Call := TrialCall
  Reply
    | .attempt => Except Raised α
    | .pause _ => Unit

/-- A script and what was done so far; the pauses stand in reverse. -/
structure Trial (α : Type) where
  script : Nat → Except Raised α
  attempts : Nat := 0
  pauses : List Number := []

namespace Trial

variable {α : Type}

def answer : Answers (trialInterface α) (Trial α)
  | .attempt, t => (t.script t.attempts, { t with attempts := t.attempts + 1 })
  | .pause ms, t => ((), { t with pauses := ms :: t.pauses })

/-- The time all pauses took, added up in the order in which they were made. -/
def elapsed (t : Trial α) : Clock.Time :=
  t.pauses.foldr (fun ms time => time + Clock.duration ms) 0

def program (r : RetryRule) : Program (trialInterface α) (Except Raised α) :=
  r.run (fun ms => Program.perform (I := trialInterface α) (.pause ms))
    (Program.perform (I := trialInterface α) .attempt)

def run (r : RetryRule) (script : Nat → Except Raised α) : Except Raised α × Trial α :=
  (program r).eval answer ⟨script, 0, []⟩

end Trial
end VisaEligibility
