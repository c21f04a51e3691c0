import VisaEligibility.Failure.Basic
/-!
The state of health of something the engine depends on. The time a check took is known when there
was something to check.
-/
set_option autoImplicit false

namespace VisaEligibility

structure Health where
  healthy : Bool
  error : Option String
  measured : Bool
deriving DecidableEq, Repr

namespace Health

def absent (error : String) : Health := ⟨false, some error, false⟩

def ofReply {α : Type} : Except Raised α → Except Failure Health
  | .ok _ => .ok ⟨true, none, true⟩
  | .error e => e.text.map fun text => ⟨false, some text, true⟩

def defaultLimit : Number := 5000

end Health
end VisaEligibility
