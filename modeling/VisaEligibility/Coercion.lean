import VisaEligibility.Value
/-!
Values taken for numbers, instants or texts that are not empty. A missing number is zero and a
truth value is zero or one; a list is read through its text, as a date by a reader of date texts.
-/
set_option autoImplicit false

namespace VisaEligibility.Value

def asNumber : Value → Number
  | null => 0
  | undefined => .nan
  | bool b => if b then 1 else 0
  | number x => x
  | text s => .ofText s
  | date d => d.toNumber
  | list vs => .ofText (list vs).display
  | record _ => .nan

def asNumberAt (v : Value) (key : String) (fallback : Number := .nan) : Number :=
  match v.field key with
  | undefined => fallback
  | w => w.asNumber

def asInstant (dates : DateReader) : Value → Instant
  | null => .ofMillis 0
  | undefined => .invalid
  | bool b => .ofMillis (if b then 1 else 0)
  | number x => .ofNumber x
  | text s => dates s
  | date d => d
  | list vs => dates (list vs).display
  | record _ => .invalid

def filledText? : Value → Option String
  | text s => if s.isEmpty then none else some s
  | _ => none

def validDate? : Value → Option Instant
  | date d => if d.isValid then some d else none
  | _ => none

def optional? {α : Type} (read? : Value → Option α) (v : Value) : Option (Option α) :=
  if v.isNullish then some none else (read? v).map some

end VisaEligibility.Value
