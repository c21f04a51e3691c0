import VisaEligibility.Number.Decimal
/-!
Percent escapes in paths. An escape writes one byte; bytes above 127 have to spell a character in
UTF-8, in its shortest form and without surrogates.
-/
set_option autoImplicit false

namespace VisaEligibility.Web.Escape

inductive Piece where
  | plain (c : Char)
  | byte (n : Nat)
deriving DecidableEq, Repr

def hexValue? (c : Char) : Option Nat :=
  let n := c.toNat
  if c.isDigit then some (n - 48)
  else if 65 ≤ n && n ≤ 70 then some (n - 55)
  else if 97 ≤ n && n ≤ 102 then some (n - 87)
  else none

def pieces? : List Char → Option (List Piece)
  | [] => some []
  | '%' :: a :: b :: rest => do
    let high ← hexValue? a
    let low ← hexValue? b
    return .byte (16 * high + low) :: (← pieces? rest)
  | c :: rest => if c = '%' then none else (pieces? rest).map (.plain c :: ·)

/-- What the first byte of a character says: how many bytes follow, the value so far and the least
value that needs so many bytes. -/
def lead? (n : Nat) : Option (Nat × Nat × Nat) :=
  if n < 0x80 then some (0, n, 0)
  else if n < 0xC0 then none
  else if n < 0xE0 then some (1, n - 0xC0, 0x80)
  else if n < 0xF0 then some (2, n - 0xE0, 0x800)
  else if n < 0xF8 then some (3, n - 0xF0, 0x10000)
  else none

def isScalar (n : Nat) : Bool := n < 0xD800 || (0xE000 ≤ n && n < 0x110000)

/-- Puts characters together, with so many bytes of the present one still to come. -/
def assemble : (left value least : Nat) → List Piece → Option (List Char)
  | 0, _, _, [] => some []
  | _ + 1, _, _, [] => none
  | 0, _, _, .plain c :: rest => (assemble 0 0 0 rest).map (c :: ·)
  | _ + 1, _, _, .plain _ :: _ => none
  | 0, _, _, .byte n :: rest => do
    match ← lead? n with
    | (0, value, _) => (assemble 0 0 0 rest).map (Char.ofNat value :: ·)
    | (left, value, least) => assemble left value least rest
  | left + 1, value, least, .byte n :: rest =>
    let value := 64 * value + (n - 0x80)
    if n < 0x80 || 0xC0 ≤ n then none
    else if 0 < left then assemble left value least rest
    else if value < least || !isScalar value then none
    else (assemble 0 0 0 rest).map (Char.ofNat value :: ·)

def decode? (s : String) : Option String := do
  return String.ofList (← assemble 0 0 0 (← pieces? s.toList))

end VisaEligibility.Web.Escape
