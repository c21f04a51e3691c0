import VisaEligibility.Number.Basic
/-!
Powers. A power of a positive base is `2 ^ (exponent * log2 base)`, with the logarithm and the
product carried in two parts: a head that is short enough for products of heads to be exact, and a
tail. Every operation rounds on its own, so the order of the operations decides the last digit and
is part of the definition. Square roots are rounded once.
-/
set_option autoImplicit false

namespace VisaEligibility.Number

def binary (m : Nat) (e : Int) : Number := finite (scaled m e)

/-- A number with the last bits of its significand cleared, counted on the grid of doubles. -/
def clearLast (bits : Nat) : Number → Number
  | finite q =>
    let (m, e) := significand q.num.natAbs q.den
    signed (q < 0) (scaled (m / pow2 bits * pow2 bits) e)
  | x => x

/-- A sum of two numbers, the first of them short. -/
structure TwoPart where
  head : Number
  tail : Number
deriving DecidableEq, Repr

namespace TwoPart

/-- The short part of a number: products of two short parts are exact. -/
def short (x : Number) : Number := clearLast 32 x

/-- The sum of two numbers, of which the second is much smaller. -/
def ofSum (a b : Number) : TwoPart :=
  let head := short (a + b)
  ⟨head, b - (head - a)⟩

end TwoPart

def polynomial (coefficients : List Number) (x : Number) : Number :=
  coefficients.foldr (fun c rest => c + x * rest) 0

namespace Log2

/-- A positive number as `2 ^ exponent * near`, where `near` is about one, or about one and a half
if `upper` holds. -/
structure Reduced where
  exponent : Int
  upper : Bool
  near : Number
deriving DecidableEq, Repr

def lowerBound : Rat := scaled 0x13988F (-20)

def upperBound : Rat := scaled 0x1BB67A (-20)

def reduce (q : Rat) : Reduced :=
  let e := binaryExponent q.num.natAbs q.den
  let a := q * scaled 1 (-e)
  if a < lowerBound then ⟨e, false, finite a⟩
  else if a < upperBound then ⟨e, true, finite a⟩
  else ⟨e + 1, false, finite (a / 2)⟩

/-- Coefficients of `s ^ 4`, `s ^ 6` and so on in `(3 / 2) * log ((1 + s) / (1 - s)) / s`, which
begins with `3 + s ^ 2`. -/
def coefficients : List Number :=
  [binary 0x13333333333303 (-53), binary 0x1B6DB6DB6FABFF (-54), binary 0x155555518F264D (-54),
    binary 0x117460A91D4101 (-54), binary 0x1D864A93C9DB65 (-55), binary 0x1A7E284A454EEF (-55)]

def scale : Number := binary 0x1EC709DC3A03FD (-53)

def scaleParts : TwoPart := ⟨binary 0xF6384F (-24), -binary 0x1E2FE0145B01F5 (-80)⟩

def upperParts : TwoPart := ⟨binary 0x4AE00D (-23), binary 0xE7EF5A1E7E803 (-78)⟩

/-- `(3 / 2) * log (near / base)`, as a series in `s = (near - base) / (near + base)`. -/
def series (near base : Number) : TwoPart :=
  let u := near - base
  let v := 1 / (near + base)
  let s := u * v
  let sHead := TwoPart.short s
  let sum := clearLast 33 near + base
  let sTail := v * ((u - sHead * sum) - sHead * (near - (sum - base)))
  let square := s * s
  let rest := square * square * polynomial coefficients square + sTail * (sHead + s)
  let headSquare := sHead * sHead
  let factor := TwoPart.short (3 + headSquare + rest)
  let factorTail := rest - ((factor - 3) - headSquare)
  .ofSum (sHead * factor) (sTail * factor + factorTail * s)

def ofRat (q : Rat) : TwoPart :=
  let r := reduce q
  let base : Number := if r.upper then binary 3 (-1) else 1
  let offset : TwoPart := if r.upper then upperParts else ⟨0, 0⟩
  let p := series r.near base
  let high := scaleParts.head * p.head
  let low := scaleParts.tail * p.head + p.tail * scale + offset.tail
  let e := ofInt r.exponent
  let head := TwoPart.short (high + low + offset.head + e)
  ⟨head, low - (head - e - offset.head - high)⟩

def inverse : Number := binary 0xB8AA3B295C17F (-51)

def inverseParts : TwoPart := ⟨binary 0xB8AA3B (-23), binary 0x52B82FE1777D1 (-76)⟩

/-- The logarithm of a number so close to one that a short series is enough. -/
def nearOne (x : Number) : TwoPart :=
  let t := x - 1
  let w := t * t * (binary 1 (-1) - t * (nearest (1 / 3) - t * binary 1 (-2)))
  .ofSum (inverseParts.head * t) (t * inverseParts.tail - w * inverse)

end Log2

namespace Exp2

/-- Coefficients of `x ^ 2`, `x ^ 4` and so on in `x * (exp x + 1) / (exp x - 1)`, which begins
with two. -/
def coefficients : List Number :=
  [binary 0x1555555555553E (-55), -binary 0x16C16C16BEBD93 (-61), binary 0x11566AAF25DE2C (-66),
    -binary 0x1BBD41C5D26BF1 (-72), binary 0x16376972BEA4D (-73)]

def log2 : Number := binary 0x162E42FEFA39EF (-53)

def log2Parts : TwoPart := ⟨binary 0x162E43 (-21), -binary 0x105C610CA86C39 (-81)⟩

/-- What is left of `1024` above the logarithm of the largest double and half a unit. -/
def overflowMargin : Number := binary 0xB8AA3B295C17F (-105)

/-- `2 ^ (head + tail)` for a sum that is about a half at most. -/
def ofFraction (tail head : Number) : Number :=
  let t := TwoPart.short (tail + head)
  let u := t * log2Parts.head
  let v := (tail - (t - head)) * log2 + t * log2Parts.tail
  let z := u + v
  let w := v - (z - u)
  let square := z * z
  let p := z - square * polynomial coefficients square
  1 - (z * p / (p - 2 - (w + z * w)) - z)

/-- The whole part of an exponent: the nearest integer to its short part, but zero for a half. -/
def whole (z : Number) : Int :=
  let a := (TwoPart.short z).value
  if a.num.natAbs * 2 ≤ a.den then 0
  else if a < 0 then -(-a + 1 / 2).floor else (a + 1 / 2).floor

def ofParts (tail head : Number) : Number :=
  let z := tail + head
  if lt 1024 z || (same z 1024 && lt (z - head) (tail + overflowMargin)) then infinite false
  else if z.lt (-1075) || (same z (-1075) && tail.le (z - head)) then 0
  else
    let n := whole z
    let m := ofFraction tail (head - ofInt n)
    nearest (m.value * scaled 1 n)

end Exp2

/-- Beyond this an exponent makes every base infinite or zero unless it is close to one. -/
def hugeExponent : Rat := scaled (pow2 20 + 1) 11

def extremeExponent : Rat := scaled (pow2 20 + 1) 44

def isCloseToOne (x : Rat) : Bool :=
  1 - scaled 1 (-21) ≤ x && x < 1 + scaled 1 (-20)

def positivePow (x e : Rat) : Number :=
  let size : Rat := if e < 0 then -e else e
  if hugeExponent ≤ size && (extremeExponent ≤ size || !isCloseToOne x) then
    if decide (x < 1) = decide (e < 0) then infinite false else 0
  else
    let log := if hugeExponent ≤ size then Log2.nearOne (finite x) else Log2.ofRat x
    let short := TwoPart.short (finite e)
    Exp2.ofParts ((finite e - short) * log.head + finite e * log.tail) (short * log.head)

def rootFrom (n : Nat) : Nat → Nat → Nat
  | 0, r => r
  | bits + 1, r =>
    let t := r + pow2 bits
    rootFrom n bits (if t * t ≤ n then t else r)

/-- The whole part of the square root of a number below `4 ^ bits`. -/
def wholeRoot (bits n : Nat) : Nat := rootFrom n bits 0

def sqrt : Number → Number
  | finite q =>
    let (m, e) := significand q.num.natAbs q.den
    let m := m * pow2 (e.emod 2).toNat * pow2 112
    let r := wholeRoot 84 m
    nearest (scaled (2 * r + if r * r = m then 0 else 1) (e.ediv 2 - 57))
  | x => x

def isInteger : Number → Bool
  | finite q => q.den = 1
  | _ => false

def isOdd (x : Number) : Bool := x.isInteger && x.value.num % 2 = 1

def magnitude (x : Number) : Number := if x.negative then -x else x

def infinitePow (b : Number) (negative : Bool) : Number :=
  if b.magnitude = 1 then nan
  else if (b.magnitude.lt 1) = negative then infinite false else 0

def specialPow (b e : Number) : Number :=
  let p := if e.negative then 1 / b.magnitude else b.magnitude
  if !b.negative then p
  else if b.magnitude = 1 && !e.isInteger then nan
  else if e.isOdd then -p else p

/-- The power of a base. The power with exponent zero is one; there is none of a negative base with
an exponent that is no integer. -/
def pow (b e : Number) : Number :=
  if e.isZero then 1
  else if b.isNaN || e.isNaN then nan
  else if !e.isFinite then infinitePow b e.negative
  else if e = 1 then b
  else if e = -1 then 1 / b
  else if e = 2 then b * b
  else if e = binary 1 (-1) && !b.negative then sqrt b
  else if !b.isFinite || b.isZero || b.magnitude = 1 then specialPow b e
  else if b.negative && !e.isInteger then nan
  else
    let p := positivePow b.magnitude.value e.value
    if b.negative && e.isOdd then -p else p

end VisaEligibility.Number
