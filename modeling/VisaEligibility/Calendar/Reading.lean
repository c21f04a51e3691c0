import VisaEligibility.Calendar.Timestamp
import VisaEligibility.Calendar.Token
/-!
Reading instants. The standard form is a year with an optional month and day, then `T` with a time and
an optional offset; a day alone is in universal time, a time without offset in the zone of the reader.
A day from 1 to 31 is taken in every month and runs over into the next. What is not in the standard
form is read loosely: numbers, names of months, times, halves of the day and offsets in any order.
-/
set_option autoImplicit false

namespace VisaEligibility

/-- How far the clocks of a place are ahead of universal time, by what they show, in milliseconds. -/
structure Zone where
  offset : Int → Int
  bounded : ∀ t, (offset t).natAbs < Instant.dayMillis.natAbs

def Zone.universal : Zone := ⟨fun _ => 0, fun _ => by decide⟩

namespace Instant

def clip (ms : Int) : Instant := if ms.natAbs ≤ limit.natAbs then ofMillis ms else invalid

/-- What has been read of a date text: up to three numbers of the day with a month by name, up to four
of the time with a half of the day, and the offset. -/
structure Fields where
  days : List Int := []
  month : Option Nat := none
  standard : Bool := false
  times : List Nat := []
  half : Option Nat := none
  sign : Option Int := none
  offsetHours : Option Nat := none
  offsetMinutes : Option Nat := none
  numbered : Bool := false
deriving DecidableEq, Repr

namespace Fields

def setOffset (f : Fields) (hours : Int) : Fields :=
  { f with sign := some (if hours < 0 then -1 else 1), offsetHours := some hours.natAbs,
           offsetMinutes := some 0 }

def isUniversal (f : Fields) : Bool := f.offsetHours == some 0 && f.offsetMinutes == some 0

def expectsTime (f : Fields) (n : Nat) : Bool :=
  match f.times.length with
  | 1 => n < 60
  | 2 => n < 60
  | 3 => n < 1000
  | _ => false

def expectsOffset (f : Fields) (n : Nat) : Bool :=
  f.offsetHours.isSome && f.offsetMinutes.isNone && n < 60

def addTime? (f : Fields) (n : Nat) : Option Fields :=
  if f.times.length < 4 then some { f with times := f.times ++ [n] } else none

def endTime (f : Fields) (ns : List Nat) : Fields :=
  { f with times := (f.times ++ ns ++ [0, 0, 0]).take 4 }

def addDay? (f : Fields) (n : Nat) : Option Fields :=
  if f.days.length < 3 then some { f with days := f.days ++ [(n : Int)] } else none

end Fields

def fractionMillis (value length : Nat) : Nat :=
  match length with
  | 1 => value * 100
  | 2 => value * 10
  | n => value / Number.pow10 (min n countedDigits - 3)

/-! ### The standard form -/

/-- How far the standard form goes: a text is refused, is in it, or goes on with some tokens. -/
inductive Standard where
  | refused
  | whole (f : Fields)
  | rest (f : Fields) (ts : List Token)
deriving DecidableEq, Repr

namespace Standard

def ofOffset (f : Fields) : List Token → Standard
  | [] => whole f
  | [.word .zulu] => whole (f.setOffset 0)
  | [.mark m, .number n 4] =>
    match m.sign? with
    | some sign =>
      if n / 100 < 24 && n % 100 < 60 then
        whole { f with sign, offsetHours := some (n / 100), offsetMinutes := some (n % 100) }
      else refused
    | none => refused
  | [.mark m, .number hours 2, .mark .colon, .number minutes 2] =>
    match m.sign? with
    | some sign =>
      if hours < 24 && minutes < 60 then
        whole { f with sign, offsetHours := hours, offsetMinutes := minutes }
      else refused
    | none => refused
  | _ => refused

/-- The time. The hour 24 is taken only as midnight. -/
def ofTime (f : Fields) : List Token → Standard
  | .number h 2 :: .mark .colon :: .number m 2 :: ts =>
    if 24 < h || 60 ≤ m || (h = 24 && m != 0) then refused
    else
      match ts with
      | .mark .colon :: .number s 2 :: ts =>
        if 60 ≤ s || (h = 24 && s != 0) then refused
        else
          match ts with
          | .mark .point :: .number value length :: ts =>
            if h = 24 && value != 0 then refused
            else ofOffset { f with times := [h, m, s, fractionMillis value length] } ts
          | ts => ofOffset { f with times := [h, m, s] } ts
      | ts => ofOffset { f with times := [h, m] } ts
  | _ => refused

def afterDay (f : Fields) : List Token → Standard
  | [] => whole ({ f with standard := true }.setOffset 0)
  | .word .time :: ts => ofTime { f with standard := true } ts
  | ts => rest f ts

def afterMonth (f : Fields) : List Token → Standard
  | .mark .hyphen :: .number d 2 :: ts =>
    if 1 ≤ d && d ≤ 31 then afterDay { f with days := f.days ++ [(d : Int)] } ts
    else rest f (.number d 2 :: ts)
  | .mark .hyphen :: ts => rest f ts
  | ts => afterDay f ts

def afterYear (year : Int) : List Token → Standard
  | .mark .hyphen :: .number m 2 :: ts =>
    if 1 ≤ m && m ≤ 12 then afterMonth { days := [year, (m : Int)] } ts
    else rest { days := [year] } (.number m 2 :: ts)
  | .mark .hyphen :: ts => rest { days := [year] } ts
  | ts => afterDay { days := [year] } ts

/-- A year has four digits, or a sign and six. -/
def ofTokens : List Token → Standard
  | .number y 4 :: ts => afterYear y ts
  | .mark m :: .number y 6 :: ts =>
    match m.sign? with
    | some sign => if sign < 0 && y = 0 then rest {} (.mark m :: ts) else afterYear (sign * y) ts
    | none => rest {} (.mark m :: .number y 6 :: ts)
  | ts => rest {} ts

end Standard

/-! ### The loose form -/

namespace Fields

/-- A number that is not marked as one of the time. A completed time is followed by its end, a blank,
a sign or the letter of universal time; a number of the day takes the hyphen after it. -/
def addNumber? (f : Fields) (n : Nat) (next : Option Token) : Option (Fields × Bool) :=
  if f.expectsOffset n then some ({ f with offsetMinutes := n }, false)
  else if f.expectsTime n then
    match next with
    | none | some .blank | some (.word .zulu) | some (.mark .hyphen) | some (.mark .plus) =>
      some (f.endTime [n], false)
    | _ => none
  else (f.addDay? n).map fun f => (f, true)

def addOffset? (f : Fields) (n length : Nat) : Option Fields :=
  if length ≤ 2 then some { f with offsetHours := n, offsetMinutes := some 0 }
  else if length ≤ 4 then some { f with offsetHours := some (n / 100), offsetMinutes := some (n % 100) }
  else none

/-- Reads on loosely, where `skips` tells that a hyphen here belongs to what was read before. -/
def loosely (f : Fields) (skips : Bool) : List Token → Option Fields
  | [] => some f
  | .number n _ :: ts =>
    let f := { f with numbered := true }
    match ts with
    | .mark .colon :: .mark .colon :: ts =>
      if f.times.isEmpty then loosely { f with times := [n, 0] } false ts else none
    | .mark .colon :: .mark .point :: ts => (f.addTime? n).bind fun f => loosely f false ts
    | .mark .colon :: ts => (f.addTime? n).bind fun f => loosely f false ts
    | .mark .point :: ts =>
      if f.expectsTime n then
        match ts with
        | .number value length :: ts => loosely (f.endTime [n, fractionMillis value length]) false ts
        | _ => none
      else (f.addNumber? n ts.head?).bind fun (f, skips) => loosely f skips ts
    | ts => (f.addNumber? n ts.head?).bind fun (f, skips) => loosely f skips ts
  | .word w :: ts =>
    let strayed (ts : List Token) : Bool :=
      f.numbered || match ts with | .number _ _ :: _ => true | _ => false
    match w with
    | .month m => loosely { f with month := m } true ts
    | .half hour =>
      if !f.times.isEmpty then loosely { f with half := hour } false ts
      else if strayed ts then none else loosely f false ts
    | .zulu =>
      if f.numbered then loosely (f.setOffset 0) false ts
      else if strayed ts then none else loosely f false ts
    | .zone hours =>
      if f.numbered then loosely (f.setOffset hours) false ts
      else if strayed ts then none else loosely f false ts
    | _ => if strayed ts then none else loosely f false ts
  | .mark m :: ts =>
    if skips && m = .hyphen then loosely f false ts
    else
      match m.sign? with
      | some sign =>
        if f.isUniversal || !f.times.isEmpty then
          let f := { f with sign, numbered := true }
          match ts with
          | .number n _ :: .mark .colon :: ts =>
            loosely { f with offsetHours := n, offsetMinutes := none } false ts
          | .number n length :: ts => (f.addOffset? n length).bind fun f => loosely f false ts
          | .mark .colon :: ts =>
            loosely { f with offsetHours := some 0, offsetMinutes := none } false ts
          | _ => none
        else if f.numbered then none else loosely f false ts
      | none => if m = .closing && f.numbered then none else loosely f false ts
  | _ :: ts => loosely f false ts

end Fields

/-! ### From fields to instants -/

/-- Outside the standard form, years of one or two digits lie between 1950 and 2049. -/
def fullYear (y : Int) : Int :=
  if 0 ≤ y && y < 50 then 2000 + y else if 50 ≤ y && y < 100 then 1900 + y else y

namespace Fields

def isDay (n : Int) : Bool := 1 ≤ n && n ≤ 31

def civil? (year month day : Int) : Option CivilDay :=
  if 1 ≤ month && month ≤ 12 && isDay day then some ⟨year, month.toNat, day.toNat⟩ else none

def year (f : Fields) (y : Int) : Int := if f.standard then y else fullYear y

/-- The day. Missing numbers are one; a first number that cannot be a day is the year. -/
def day? (f : Fields) : Option CivilDay :=
  match f.days ++ List.replicate (3 - f.days.length) 1 with
  | [a, b, c] =>
    if f.days.isEmpty then none
    else
      match f.month with
      | some m => if isDay a then civil? (f.year b) m a else civil? (f.year a) m b
      | none => if f.standard || !isDay a then civil? (f.year a) b c else civil? (f.year c) a b
  | _ => none

def hour? (f : Fields) (h : Nat) : Option Nat :=
  match f.half with
  | some first => if h ≤ 12 then some (h % 12 + first) else none
  | none => some h

/-- The time of day in milliseconds. The hour 24 is taken only as midnight. -/
def time? (f : Fields) : Option Nat :=
  match f.times ++ List.replicate (4 - f.times.length) 0 with
  | [h, m, s, ms] => do
    let h ← f.hour? h
    if h < 24 && m < 60 && s < 60 && ms < 1000 || h = 24 && m = 0 && s = 0 && ms = 0 then
      some (h * 3600000 + m * 60000 + s * 1000 + ms)
    else none
  | _ => none

/-- The seconds of an offset are kept in 32 bits, and half of them are too many. -/
def offsetSeconds? (f : Fields) : Option Nat :=
  let seconds := (f.offsetHours.getD 0 * 3600 + f.offsetMinutes.getD 0 * 60) % Number.pow2 32
  if seconds < Number.pow2 31 then some seconds else none

def instant? (f : Fields) (zone : Zone) : Option Instant := do
  let day ← f.day?
  let time ← f.time?
  let shown : Int := day.toDays * dayMillis + time
  match f.sign with
  | some sign => do
    let seconds ← f.offsetSeconds?
    some (clip (shown - sign * (seconds * 1000 : Nat)))
  | none => some (clip (shown - zone.offset shown))

end Fields

def ofTokens? (ts : List Token) (zone : Zone) : Option Instant :=
  match Standard.ofTokens ts with
  | .refused => none
  | .whole f => f.instant? zone
  | .rest f ts =>
    ({ f with numbered := !f.days.isEmpty }.loosely false ts).bind fun f => f.instant? zone

/-- The instant a text stands for; the invalid one when it is none. -/
def ofText (s : String) (zone : Zone := .universal) : Instant :=
  (ofTokens? (tokens s.toList) zone).getD .invalid

end Instant

/-- What date texts stand for. Beyond the standard form that is up to the runtime. -/
abbrev DateReader := String → Instant

def DateReader.universal : DateReader := fun s => .ofText s .universal

end VisaEligibility
