import VisaEligibility.Value
/-!
Values as JSON text. Quotes, backslashes and control characters are escaped and nothing else; an
instant is its timestamp; what has no written form is `null`, and an undefined field is left out.
-/
set_option autoImplicit false

namespace VisaEligibility.Json

def hexDigits (n : Nat) : List Char :=
  let ds := Nat.toDigits 16 n
  List.replicate (4 - ds.length) '0' ++ ds

def escapeChar (c : Char) : List Char :=
  match c with
  | '"' => ['\\', '"']
  | '\\' => ['\\', '\\']
  | '\n' => ['\\', 'n']
  | '\r' => ['\\', 'r']
  | '\t' => ['\\', 't']
  | c =>
    if c.toNat = 8 then ['\\', 'b']
    else if c.toNat = 12 then ['\\', 'f']
    else if c.toNat < 32 then '\\' :: 'u' :: hexDigits c.toNat
    else [c]

def quote (s : String) : String := String.ofList ('"' :: s.toList.flatMap escapeChar ++ ['"'])

def numberText (x : Number) : String := if x.isFinite then x.text else "null"

mutual

def print : Value → String
  | .null => "null"
  | .undefined => "null"
  | .bool b => if b then "true" else "false"
  | .number x => numberText x
  | .text s => quote s
  | .date d => (d.timestamp?.map quote).getD "null"
  | .list vs => "[" ++ String.intercalate "," (printItems vs) ++ "]"
  | .record fs => "\x7b" ++ String.intercalate "," (printFields fs) ++ "\x7d"

def printItems : List Value → List String
  | [] => []
  | v :: vs => print v :: printItems vs

def printFields : List (String × Value) → List String
  | [] => []
  | (_, .undefined) :: fs => printFields fs
  | (k, v) :: fs => (quote k ++ ":" ++ print v) :: printFields fs

end

mutual

def plain : Value → Value
  | .undefined => .null
  | .number x => if x.isFinite then .number x else .null
  | .date d => (d.timestamp?.map Value.text).getD .null
  | .list vs => .list (plainItems vs)
  | .record fs => .record (plainFields fs)
  | v => v

def plainItems : List Value → List Value
  | [] => []
  | v :: vs => plain v :: plainItems vs

def plainFields : List (String × Value) → List (String × Value)
  | [] => []
  | (_, .undefined) :: fs => plainFields fs
  | (k, v) :: fs => (k, plain v) :: plainFields fs

end

end VisaEligibility.Json
