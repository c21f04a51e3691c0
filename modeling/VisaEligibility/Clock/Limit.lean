import VisaEligibility.Failure.Basic
/-!
Calls under a time limit. A call that needs exactly the limit still counts; one that needs longer,
or never settles, ends at the limit with a timeout. Times are numbers: adding a delay to a time
rounds, and a time may be infinite.
-/
set_option autoImplicit false

namespace VisaEligibility.Clock

abbrev Time := Number

/-- How long a delay lasts; a negative one, and one that is no number, lasts no time. -/
def duration (ms : Number) : Time := if Number.lt 0 ms then ms else 0

def limitDuration (limit : Option Number) : Time := (limit.map duration).getD 0

def ending (settles : Option Time) (limit : Time) : Time :=
  match settles with
  | some t => if t.le limit then t else limit
  | none => limit

def inTime (settles : Option Time) (limit : Time) : Bool :=
  match settles with
  | some t => t.le limit
  | none => false

def operationName (name : Option String) : String :=
  match name with
  | some n => if n.isEmpty then "Operation" else n
  | none => "Operation"

def limited {α : Type} (settles : Option Time) (outcome : Except Raised α) (limit : Option Number)
    (name : Option String) : Except Raised α × Time :=
  (if inTime settles (limitDuration limit) then outcome
    else .error (.failure (.timeout (operationName name) limit)),
    ending settles (limitDuration limit))

end VisaEligibility.Clock
