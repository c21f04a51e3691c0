/-!
Text measured in 16-bit code units. A character outside the basic plane takes two units, a high
and a low surrogate; a cut between the two leaves a unit that no character stands for.
-/
set_option autoImplicit false

namespace VisaEligibility.Text

def unitsOf (c : Char) : List UInt16 :=
  if c.toNat < 0x10000 then [c.toNat.toUInt16]
  else
    let n := c.toNat - 0x10000
    [(0xD800 + n / 0x400).toUInt16, (0xDC00 + n % 0x400).toUInt16]

/-- A text as 16-bit code units, which need not pair up. -/
structure Units where
  units : List UInt16
deriving DecidableEq, Repr, Inhabited

namespace Units

def ofList (cs : List Char) : Units := ⟨cs.flatMap unitsOf⟩

def ofString (s : String) : Units := ofList s.toList

def length (u : Units) : Nat := u.units.length

def append (u v : Units) : Units := ⟨u.units ++ v.units⟩

instance : Append Units := ⟨append⟩

def take (n : Nat) (u : Units) : Units := ⟨u.units.take n⟩

def isHigh (u : UInt16) : Bool := 0xD800 ≤ u.toNat && u.toNat < 0xDC00

def isLow (u : UInt16) : Bool := 0xDC00 ≤ u.toNat && u.toNat < 0xE000

def pair (h l : UInt16) : Char :=
  Char.ofNat (0x10000 + (h.toNat - 0xD800) * 0x400 + (l.toNat - 0xDC00))

/-- Every high surrogate is followed by a low one and every low one follows a high one. -/
def wellFormedUnits : List UInt16 → Bool
  | [] => true
  | u :: us =>
    if isHigh u then
      match us with
      | [] => false
      | v :: vs => isLow v && wellFormedUnits vs
    else !isLow u && wellFormedUnits us

def wellFormed (u : Units) : Bool := wellFormedUnits u.units

/-- The characters of a text; a unit without its partner reads as the replacement character. -/
def decode : List UInt16 → List Char
  | [] => []
  | [u] => [if isHigh u || isLow u then '\ufffd' else Char.ofNat u.toNat]
  | u :: v :: us =>
    if isHigh u && isLow v then pair u v :: decode us
    else (if isHigh u || isLow u then '\ufffd' else Char.ofNat u.toNat) :: decode (v :: us)

def toList (u : Units) : List Char := decode u.units

def toString (u : Units) : String := String.ofList u.toList

instance : ToString Units := ⟨toString⟩

end Units

def unitLength (s : String) : Nat := (Units.ofString s).length

def unitOrder (s t : String) : Ordering :=
  compareLex s.toList t.toList
where
  compareLex : List Char → List Char → Ordering
    | [], [] => .eq
    | [], _ :: _ => .lt
    | _ :: _, [] => .gt
    | c :: cs, d :: ds => if c = d then compareLex cs ds else compareUnits (unitsOf c) (unitsOf d)
  compareUnits : List UInt16 → List UInt16 → Ordering
    | u :: us, v :: vs => if u = v then compareUnits us vs else compare u.toNat v.toNat
    | [], [] => .eq
    | [], _ :: _ => .lt
    | _ :: _, [] => .gt

def unitLe (s t : String) : Bool := unitOrder s t != .gt

end VisaEligibility.Text
