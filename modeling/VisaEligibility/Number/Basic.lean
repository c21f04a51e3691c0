/-!
Numbers as the engine computes with them. A finite number is an exact rational; every operation
that computes is exact and then rounds once to the nearest double-precision value, an even
significand on a tie. Zero has a sign: the two zeros are equal in every comparison and written
alike, and only a quotient or a power tells them apart.
-/
set_option autoImplicit false

namespace VisaEligibility

inductive Number where
  | nan
  | infinite (negative : Bool)
  | negativeZero
  | finite (value : Rat)
deriving DecidableEq, Repr, Inhabited

namespace Number

def pow2 (n : Nat) : Nat := Nat.pow 2 n

def pow10 (n : Nat) : Nat := Nat.pow 10 n

def nearestInteger (n d : Nat) : Nat :=
  let q := n / d
  let r := n % d
  if 2 * r < d then q else if d < 2 * r then q + 1 else q + q % 2

/-- The exponent `e` with `2 ^ e ≤ n / d < 2 ^ (e + 1)`, for positive `n` and `d`. -/
def binaryExponent (n d : Nat) : Int :=
  let e := (n.log2 : Int) - d.log2
  if d * pow2 e.toNat ≤ n * pow2 (-e).toNat then e else e - 1

/-- The exponent of the last significand bit of a double near `n / d`. -/
def lastPlace (n d : Nat) : Int :=
  max (binaryExponent n d - 52) (-1074)

/-- The double nearest to the nonnegative `n / d`, as a significand and an exponent. -/
def significand (n d : Nat) : Nat × Int :=
  if n = 0 then (0, -1074)
  else
    let e := lastPlace n d
    (nearestInteger (n * pow2 (-e).toNat) (d * pow2 e.toNat), e)

def scaled (m : Nat) (e : Int) : Rat :=
  if 0 ≤ e then (m * pow2 e.toNat : Nat) else mkRat m (pow2 (-e).toNat)

def zero (negative : Bool) : Number := if negative then negativeZero else finite 0

def signed (negative : Bool) (magnitude : Rat) : Number :=
  if magnitude = 0 then zero negative else finite (if negative then -magnitude else magnitude)

/-- Rounds a rational to the nearest double; from `2 ^ 1024` on it is infinite. What is too small
becomes a zero of its sign. -/
def nearest (q : Rat) : Number :=
  let (m, e) := significand q.num.natAbs q.den
  let v := scaled m e
  if (pow2 1024 : Rat) ≤ v then infinite (q < 0) else signed (q < 0) v

def ofInt (i : Int) : Number := nearest i

instance (n : Nat) : OfNat Number n := ⟨finite n⟩

instance : NatCast Number := ⟨fun n => nearest n⟩

def isFinite : Number → Bool
  | finite _ => true
  | negativeZero => true
  | _ => false

def isNaN : Number → Bool
  | nan => true
  | _ => false

def isZero : Number → Bool
  | negativeZero => true
  | finite a => a = 0
  | _ => false

def negative : Number → Bool
  | nan => false
  | infinite s => s
  | negativeZero => true
  | finite a => a < 0

/-- The rational that a finite number stands for, zero for the others. -/
def value : Number → Rat
  | finite a => a
  | _ => 0

def order? : Number → Number → Option Ordering
  | nan, _ => none
  | _, nan => none
  | infinite s, infinite t => some (compare t s)
  | infinite s, _ => some (if s then .lt else .gt)
  | _, infinite t => some (if t then .gt else .lt)
  | a, b => some (if a.value < b.value then .lt else if a.value = b.value then .eq else .gt)

def lt (a b : Number) : Bool := a.order? b == some .lt

def le (a b : Number) : Bool := a.lt b || a.order? b == some .eq

/-- Numeric equality, under which `nan` differs from itself. -/
def same (a b : Number) : Bool := a.order? b == some .eq

/-- The sum; that of two negative zeros is negative. -/
def add : Number → Number → Number
  | nan, _ => nan
  | _, nan => nan
  | infinite s, infinite t => if s = t then infinite s else nan
  | infinite s, _ => infinite s
  | _, infinite t => infinite t
  | negativeZero, negativeZero => negativeZero
  | a, b => nearest (a.value + b.value)

def neg : Number → Number
  | nan => nan
  | infinite s => infinite !s
  | negativeZero => finite 0
  | finite a => if a = 0 then negativeZero else finite (-a)

def sub (a b : Number) : Number := a.add b.neg

def withZeroSign (negative : Bool) (x : Number) : Number := if x.isZero then zero negative else x

/-- The product; its sign follows from the signs of the factors also where it is zero. -/
def mul (a b : Number) : Number :=
  let minus := a.negative != b.negative
  match a, b with
  | nan, _ => nan
  | _, nan => nan
  | infinite _, x => if x.isZero then nan else infinite minus
  | x, infinite _ => if x.isZero then nan else infinite minus
  | x, y => (nearest (x.value * y.value)).withZeroSign minus

/-- The quotient; a quotient by zero is infinite, with the sign that follows from both signs. -/
def div (a b : Number) : Number :=
  let minus := a.negative != b.negative
  match a, b with
  | nan, _ => nan
  | _, nan => nan
  | infinite _, infinite _ => nan
  | infinite _, _ => infinite minus
  | _, infinite _ => zero minus
  | x, y =>
    if y.isZero then (if x.isZero then nan else infinite minus)
    else (nearest (x.value / y.value)).withZeroSign minus

instance : Add Number := ⟨add⟩

instance : Neg Number := ⟨neg⟩

instance : Sub Number := ⟨sub⟩

instance : Mul Number := ⟨mul⟩

instance : Div Number := ⟨div⟩

def least (a b : Number) : Number :=
  if a.isNaN || b.isNaN then nan else if b.lt a then b else a

/-- Rounds to the nearest integer, a half upward. -/
def round : Number → Number
  | finite a => finite (a + 1 / 2).floor
  | x => x

/-- Rounds a finite number toward zero; `none` for the others. -/
def truncate? : Number → Option Int
  | finite a => some (if a < 0 then a.ceil else a.floor)
  | negativeZero => some 0
  | _ => none

end Number
end VisaEligibility
