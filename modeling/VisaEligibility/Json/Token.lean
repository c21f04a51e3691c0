import VisaEligibility.Text.Units
/-!
Tokens of the JSON text format. Scanning is one step per character; the characters of a string are
gathered as 16-bit units, so that an escaped surrogate pair becomes one character.
-/
set_option autoImplicit false

namespace VisaEligibility.Json

inductive Token where
  | openList
  | closeList
  | openRecord
  | closeRecord
  | comma
  | colon
  | text (s : String)
  | word (cs : List Char)
deriving DecidableEq, Repr

namespace Token

inductive Mode where
  | between
  | word (read : List Char)
  | text (read : List UInt16)
  | escape (read : List UInt16)
  | unit (read : List UInt16) (left : Nat) (value : Nat)
deriving DecidableEq, Repr

/-- What is scanned so far; tokens and characters stand in reverse. -/
structure Scan where
  tokens : List Token
  mode : Mode

def mark? : Char → Option Token
  | '[' => some openList
  | ']' => some closeList
  | ',' => some comma
  | ':' => some colon
  | c => if c.toNat = 0x7B then some openRecord else if c.toNat = 0x7D then some closeRecord
    else none

def isSpace (c : Char) : Bool := c = ' ' || c = '\t' || c = '\n' || c = '\r'

def hexDigit? (c : Char) : Option Nat :=
  if c.isDigit then some (c.toNat - 48)
  else
    let l := c.toLower.toNat
    if 97 ≤ l && l ≤ 102 then some (l - 87) else none

def escaped? (c : Char) : Option Nat :=
  match c with
  | '"' => some 34
  | '\\' => some 92
  | '/' => some 47
  | 'b' => some 8
  | 'f' => some 12
  | 'n' => some 10
  | 'r' => some 13
  | 't' => some 9
  | _ => none

def between (tokens : List Token) (c : Char) : Scan :=
  if isSpace c then ⟨tokens, .between⟩
  else if c = '"' then ⟨tokens, .text []⟩
  else
    match mark? c with
    | some t => ⟨t :: tokens, .between⟩
    | none => ⟨tokens, .word [c]⟩

def step? (s : Scan) (c : Char) : Option Scan :=
  match s.mode with
  | .between => some (between s.tokens c)
  | .word read =>
    if isSpace c || c = '"' || (mark? c).isSome then
      some (between (word read.reverse :: s.tokens) c)
    else some ⟨s.tokens, .word (c :: read)⟩
  | .text read =>
    if c = '"' then some ⟨text (String.ofList (Text.Units.decode read.reverse)) :: s.tokens, .between⟩
    else if c = '\\' then some ⟨s.tokens, .escape read⟩
    else if c.toNat < 0x20 then none
    else some ⟨s.tokens, .text ((Text.unitsOf c).reverse ++ read)⟩
  | .escape read =>
    if c = 'u' then some ⟨s.tokens, .unit read 4 0⟩
    else (escaped? c).map fun n => ⟨s.tokens, .text (n.toUInt16 :: read)⟩
  | .unit read left value =>
    (hexDigit? c).map fun d =>
      let value := 16 * value + d
      ⟨s.tokens, if left ≤ 1 then .text (value.toUInt16 :: read) else .unit read (left - 1) value⟩

def finish? (s : Scan) : Option (List Token) :=
  match s.mode with
  | .between => some s.tokens.reverse
  | .word read => some (word read.reverse :: s.tokens).reverse
  | _ => none

def ofText? (cs : List Char) : Option (List Token) :=
  (cs.foldlM step? ⟨[], .between⟩).bind finish?

end Token
end VisaEligibility.Json
