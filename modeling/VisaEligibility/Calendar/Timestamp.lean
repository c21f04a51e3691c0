import VisaEligibility.Calendar.Instant
/-!
The written forms of an instant: the timestamp `2024-06-01T10:00:00.000Z`, its calendar day, and
the long form with weekday and zone.
-/
set_option autoImplicit false

namespace VisaEligibility.Instant

def padded (width n : Nat) : List Char :=
  let ds := Number.digits n
  Number.zeros (width - ds.length) ++ ds

def yearText (y : Int) : List Char :=
  if 0 ≤ y && y ≤ 9999 then padded 4 y.toNat
  else (if y < 0 then '-' else '+') :: padded 6 y.natAbs

structure Clock where
  hour : Nat
  minute : Nat
  second : Nat
  millis : Nat

def clock (ms : Int) : Clock :=
  let t := (ms.fmod dayMillis).toNat
  { hour := t / 3600000, minute := t / 60000 % 60, second := t / 1000 % 60, millis := t % 1000 }

def timestampChars (ms : Int) : List Char :=
  let c := CivilDay.ofDays (ms.fdiv dayMillis)
  let t := clock ms
  yearText c.year ++ '-' :: padded 2 c.month ++ '-' :: padded 2 c.day ++
    'T' :: padded 2 t.hour ++ ':' :: padded 2 t.minute ++ ':' :: padded 2 t.second ++
    '.' :: padded 3 t.millis ++ ['Z']

def timestamp? : Instant → Option String
  | invalid => none
  | ofMillis ms => some (String.ofList (timestampChars ms))

/-- The first ten characters of the timestamp: the calendar day for a year of four digits. -/
def day? : Instant → Option String
  | invalid => none
  | ofMillis ms => some (String.ofList ((timestampChars ms).take 10))

def weekdays : List String := ["Thu", "Fri", "Sat", "Sun", "Mon", "Tue", "Wed"]

def months : List String :=
  ["Jan", "Feb", "Mar", "Apr", "May", "Jun", "Jul", "Aug", "Sep", "Oct", "Nov", "Dec"]

def longYear (y : Int) : List Char :=
  (if y < 0 then ['-'] else []) ++ padded 4 y.natAbs

/-- The long form, `Sat Jun 01 2024 10:00:00 GMT+0000 (Coordinated Universal Time)`. -/
def longText : Instant → String
  | invalid => "Invalid Date"
  | ofMillis ms =>
    let days := ms.fdiv dayMillis
    let c := CivilDay.ofDays days
    let t := clock ms
    String.ofList
      ((weekdays.getD (days.fmod 7).toNat "").toList ++
        ' ' :: (months.getD (c.month - 1) "").toList ++ ' ' :: padded 2 c.day ++
        ' ' :: longYear c.year ++ ' ' :: padded 2 t.hour ++ ':' :: padded 2 t.minute ++
        ':' :: padded 2 t.second ++ " GMT+0000 (Coordinated Universal Time)".toList)

end VisaEligibility.Instant
