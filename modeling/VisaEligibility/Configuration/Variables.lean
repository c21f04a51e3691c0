import VisaEligibility.Number.Reading
/-!
Variables of the environment. A variable that is empty counts as unset, and so does a number that
cannot be read; a number is read from the start of the text.
-/
set_option autoImplicit false

namespace VisaEligibility

abbrev Variables := List (String × String)

namespace Variables

def get? (vs : Variables) (name : String) : Option String :=
  (vs.find? fun v => v.1 == name).map Prod.snd

def filled? (vs : Variables) (name : String) : Option String :=
  (vs.get? name).filter fun s => !s.isEmpty

def text (vs : Variables) (name fallback : String) : String := (vs.filled? name).getD fallback

def orFallback (fallback x : Number) : Number := if x.isNaN then fallback else x

def wholeNumber (vs : Variables) (name : String) (fallback : Number) : Number :=
  match vs.filled? name with
  | some s => orFallback fallback (.wholeOfStart s)
  | none => fallback

def decimal (vs : Variables) (name : String) (fallback : Number) : Number :=
  match vs.filled? name with
  | some s => orFallback fallback (.ofStart s)
  | none => fallback

def flag (vs : Variables) (name : String) (fallback : Bool) : Bool :=
  match vs.filled? name with
  | some s => s == "true"
  | none => fallback

def shown (vs : Variables) (name : String) : String := (vs.get? name).getD "undefined"

end Variables
end VisaEligibility
