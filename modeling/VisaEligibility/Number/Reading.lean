import VisaEligibility.Number.Decimal
import VisaEligibility.Text.Blank
/-!
Reading numbers. A whole text is a number when nothing but white space surrounds one numeral; a
prefix reading takes the longest numeral at the start and ignores the rest.
-/
set_option autoImplicit false

namespace VisaEligibility.Number

def digitValue (c : Char) : Nat := c.toNat - '0'.toNat

def ofDigits (ds : List Char) : Nat := ds.foldl (fun n c => 10 * n + digitValue c) 0

/-- Beyond this decimal exponent a value is infinite, or zero below its negative. -/
def exponentLimit : Int := 400

def ofDecimal (minus : Bool) (m : Nat) (e : Int) : Number :=
  let size : Int := (digits m).length + e
  if m = 0 || size < -exponentLimit then zero minus
  else if exponentLimit < size then infinite minus
  else
    let v : Rat := if 0 ≤ e then (m * pow10 e.toNat : Nat) else mkRat m (pow10 (-e).toNat)
    (nearest (if minus then -v else v)).withZeroSign minus

def takeSign : List Char → Bool × List Char
  | '-' :: cs => (true, cs)
  | '+' :: cs => (false, cs)
  | cs => (false, cs)

def spanDigits (cs : List Char) : List Char × List Char := cs.span Char.isDigit

def takeExponent : List Char → Int × List Char
  | c :: cs =>
    if c = 'e' || c = 'E' then
      let (minus, rest) := takeSign cs
      match spanDigits rest with
      | ([], _) => (0, c :: cs)
      | (ds, rest) => (if minus then -(ofDigits ds : Int) else ofDigits ds, rest)
    else (0, c :: cs)
  | [] => (0, [])

/-- The longest unsigned decimal numeral at the start: digits, a point with digits, or both, and
an exponent. -/
def takeDecimal? (minus : Bool) (cs : List Char) : Option (Number × List Char) :=
  let (whole, rest) := spanDigits cs
  let (part, rest) : List Char × List Char :=
    match rest with
    | '.' :: cs =>
      let (part, after) := spanDigits cs
      if whole.isEmpty && part.isEmpty then ([], rest) else (part, after)
    | _ => ([], rest)
  if whole.isEmpty && part.isEmpty then none
  else
    let (e, rest) := takeExponent rest
    some (ofDecimal minus (ofDigits (whole ++ part)) (e - part.length), rest)

def infinityWord : List Char := "Infinity".toList

def takeNumeral? (cs : List Char) : Option (Number × List Char) :=
  let (minus, rest) := takeSign cs
  if infinityWord.isPrefixOf rest then some (infinite minus, rest.drop infinityWord.length)
  else takeDecimal? minus rest

def radixDigit? (radix : Nat) (c : Char) : Option Nat :=
  let v :=
    if c.isDigit then digitValue c
    else if c.isAlpha then c.toLower.toNat - 'a'.toNat + 10 else radix
  if v < radix then some v else none

def ofRadix? (radix : Nat) (cs : List Char) : Option Number :=
  if cs.isEmpty then none
  else (cs.mapM (radixDigit? radix)).map fun ds => (ds.foldl (fun n d => radix * n + d) 0 : Nat)

/-- The number a trimmed text stands for; `nan` when it is none, zero when it is empty. -/
def ofTrimmed (cs : List Char) : Number :=
  match cs with
  | [] => 0
  | '0' :: c :: rest =>
    let radix := if c.toLower = 'x' then 16 else if c.toLower = 'o' then 8
      else if c.toLower = 'b' then 2 else 0
    if radix = 0 then decimal cs else (ofRadix? radix rest).getD nan
  | _ => decimal cs
where
  decimal (cs : List Char) : Number :=
    match takeNumeral? cs with
    | some (v, []) => v
    | _ => nan

def ofText (s : String) : Number := ofTrimmed (Text.trimChars s.toList)

def ofStart (s : String) : Number :=
  match takeNumeral? (Text.trimLeft s.toList) with
  | some (v, _) => v
  | none => nan

def wholeOfStart (s : String) : Number :=
  let (minus, rest) := takeSign (Text.trimLeft s.toList)
  match spanDigits rest with
  | ([], _) => nan
  | (ds, _) => ofDecimal minus (ofDigits ds) 0

end VisaEligibility.Number
