import VisaEligibility.Number.Reading
/-!
Instants: whole milliseconds from the start of 1970, within a hundred million days of it, or the
invalid instant. Days and months follow the Gregorian calendar in both directions.
-/
set_option autoImplicit false

namespace VisaEligibility

inductive Instant where
  | invalid
  | ofMillis (ms : Int)
deriving DecidableEq, Repr, Inhabited

namespace Instant

def dayMillis : Int := 86400000

def limit : Int := 8640000000000000

def ofNumber (x : Number) : Instant :=
  match x.truncate? with
  | some ms => if ms.natAbs ≤ limit.natAbs then ofMillis ms else invalid
  | none => invalid

def isValid : Instant → Bool
  | invalid => false
  | ofMillis _ => true

def toNumber : Instant → Number
  | invalid => .nan
  | ofMillis ms => .ofInt ms

def order? : Instant → Instant → Option Ordering
  | ofMillis a, ofMillis b => some (compare a b)
  | _, _ => none

def lt (a b : Instant) : Bool := a.order? b == some .lt

def le (a b : Instant) : Bool := a.lt b || a.order? b == some .eq

end Instant

structure CivilDay where
  year : Int
  month : Nat
  day : Nat
deriving DecidableEq, Repr

namespace CivilDay

/-- Days from 1 January 1970 to the day; days past the end of a month run into the next one. -/
def toDays (c : CivilDay) : Int :=
  let y := if c.month ≤ 2 then c.year - 1 else c.year
  let era := y.fdiv 400
  let yoe := y - era * 400
  let shifted : Int := if c.month > 2 then c.month - 3 else c.month + 9
  let doy := (153 * shifted + 2).fdiv 5 + c.day - 1
  era * 146097 + (yoe * 365 + yoe.fdiv 4 - yoe.fdiv 100 + doy) - 719468

def ofDays (days : Int) : CivilDay :=
  let z := days + 719468
  let era := z.fdiv 146097
  let doe := z - era * 146097
  let yoe := (doe - doe.fdiv 1460 + doe.fdiv 36524 - doe.fdiv 146096).fdiv 365
  let doy := doe - (365 * yoe + yoe.fdiv 4 - yoe.fdiv 100)
  let mp := (5 * doy + 2).fdiv 153
  let month := if mp < 10 then mp + 3 else mp - 9
  { year := yoe + era * 400 + (if month ≤ 2 then 1 else 0)
    month := month.toNat
    day := (doy - (153 * mp + 2).fdiv 5 + 1).toNat }

end CivilDay
end VisaEligibility
