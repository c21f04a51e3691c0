import VisaEligibility.Number.Basic
/-!
Decimal text of numbers. The general form has the fewest digits that read back as the same
double; the fixed form has a given number of places, a half rounded away from zero.
-/
set_option autoImplicit false

namespace VisaEligibility.Number

def digits (n : Nat) : List Char := Nat.toDigits 10 n

/-- The exponent `k` with `10 ^ k ≤ n / d < 10 ^ (k + 1)`, for positive `n` and `d`. -/
def decimalExponent (n d : Nat) : Int :=
  let k : Int := (digits n).length - (digits d).length
  if d * pow10 k.toNat ≤ n * pow10 (-k).toNat then k else k - 1

/-- The open or closed interval of the values that round to one double, in units of a quarter of
its last place. -/
structure RoundingInterval where
  low : Nat
  high : Nat
  lastPlace : Int
  closed : Bool

def roundingInterval (n d : Nat) : RoundingInterval :=
  let (m, e) := significand n d
  { low := if m = pow2 52 && e != -1074 then 4 * m - 1 else 4 * m - 2
    high := 4 * m + 2
    lastPlace := e - 2
    closed := m % 2 = 0 }

/-- Whether `c * 10 ^ k` lies in the interval. -/
def RoundingInterval.holds (i : RoundingInterval) (c : Nat) (k : Int) : Bool :=
  let l := i.low * pow2 i.lastPlace.toNat * pow10 (-k).toNat
  let h := i.high * pow2 i.lastPlace.toNat * pow10 (-k).toNat
  let x := c * pow10 k.toNat * pow2 (-i.lastPlace).toNat
  if i.closed then l ≤ x && x ≤ h else l < x && x < h

/-- The point of the grid of multiples of `10 ^ k` that is nearest to `n / d` among its two
neighbours that read back as the same double. -/
def gridPoint? (i : RoundingInterval) (n d : Nat) (k : Int) : Option Nat :=
  let num := n * pow10 (-k).toNat
  let den := d * pow10 k.toNat
  let c := num / den
  match i.holds c k && c != 0, i.holds (c + 1) k with
  | false, false => none
  | true, false => some c
  | false, true => some (c + 1)
  | true, true => some (nearestInteger num den)

/-- The coarsest grid with a point that reads back, `left` digits before the seventeenth. -/
def shortestFrom (i : RoundingInterval) (n d : Nat) (k : Int) : Nat → Nat × Int
  | 0 => (nearestInteger (n * pow10 (-k).toNat) (d * pow10 k.toNat), k)
  | left + 1 =>
    match gridPoint? i n d k with
    | some c => (c, k)
    | none => shortestFrom i n d (k - 1) left

/-- Digits and exponent of the shortest decimal that reads back as the double nearest to `n / d`. -/
def shortest (n d : Nat) : Nat × Int :=
  shortestFrom (roundingInterval n d) n d (decimalExponent n d) 16

def dropZeros (ds : List Char) : List Char := (ds.reverse.dropWhile (· == '0')).reverse

def zeros (n : Nat) : List Char := List.replicate n '0'

def intDigits (i : Int) : List Char :=
  if i < 0 then '-' :: digits i.natAbs else digits i.natAbs

/-- Writes digits with the point after position `p`: without exponent from `1e-6` up to `1e21`. -/
def layout (ds : List Char) (p : Int) : List Char :=
  let n : Int := ds.length
  if n ≤ p && p ≤ 21 then ds ++ zeros (p - n).toNat
  else if 0 < p && p ≤ 21 then ds.take p.toNat ++ '.' :: ds.drop p.toNat
  else if -6 < p && p ≤ 0 then '0' :: '.' :: zeros (-p).toNat ++ ds
  else
    let e := p - 1
    let tail := 'e' :: (if e < 0 then '-' else '+') :: digits e.natAbs
    match ds with
    | [d] => d :: tail
    | d :: rest => d :: '.' :: rest ++ tail
    | [] => tail

def magnitudeText (n d : Nat) : List Char :=
  if n = 0 then ['0']
  else
    let (c, k) := shortest n d
    let ds := digits c
    layout (dropZeros ds) (ds.length + k)

def text : Number → String
  | nan => "NaN"
  | infinite s => if s then "-Infinity" else "Infinity"
  | negativeZero => "0"
  | finite a =>
    let m := magnitudeText a.num.natAbs a.den
    String.ofList (if a < 0 then '-' :: m else m)

def halfUp (n d : Nat) : Nat := (2 * n + d) / (2 * d)

/-- The text with two places; from `1e21` on the general text. -/
def hundredths : Number → String
  | finite a =>
    if (pow10 21 : Rat) ≤ a || a ≤ -(pow10 21 : Rat) then text (finite a)
    else
      let h := halfUp (a.num.natAbs * 100) a.den
      let part := digits (h % 100)
      let m := digits (h / 100) ++ '.' :: zeros (2 - part.length) ++ part
      String.ofList (if a < 0 then '-' :: m else m)
  | negativeZero => "0.00"
  | x => text x

def percent (x : Number) : String := text (x.mul 100).round ++ "%"

end VisaEligibility.Number
