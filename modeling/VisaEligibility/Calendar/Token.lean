import VisaEligibility.Number.Reading
/-!
The tokens of a date text: numbers with their lengths, marks, words and blanks. Of a word only its
meaning counts, in either case; text in parentheses is passed over.
-/
set_option autoImplicit false

namespace VisaEligibility.Instant

inductive Mark where
  | colon
  | hyphen
  | plus
  | point
  | closing
deriving DecidableEq, Repr

namespace Mark

def ofChar? : Char → Option Mark
  | ':' => some colon
  | '-' => some hyphen
  | '+' => some plus
  | '.' => some point
  | ')' => some closing
  | _ => none

def sign? : Mark → Option Int
  | hyphen => some (-1)
  | plus => some 1
  | _ => none

end Mark

/-- The meaning of a word: a month, a half of the day by its first hour, universal time as the one
letter, a zone by its hours, or the letter before a time. -/
inductive Word where
  | month (n : Nat)
  | half (hour : Nat)
  | zulu
  | zone (hours : Int)
  | time
  | other
deriving DecidableEq, Repr

namespace Word

def monthNames : List String :=
  ["jan", "feb", "mar", "apr", "may", "jun", "jul", "aug", "sep", "oct", "nov", "dec"]

def ofName : String → Word
  | "am" => half 0
  | "pm" => half 12
  | "ut" | "utc" | "gmt" => zone 0
  | "z" => zulu
  | "cdt" => zone (-5)
  | "cst" => zone (-6)
  | "edt" => zone (-4)
  | "est" => zone (-5)
  | "mdt" => zone (-6)
  | "mst" => zone (-7)
  | "pdt" => zone (-7)
  | "pst" => zone (-8)
  | "t" => time
  | _ => other

/-- A word that starts like a month is that month, any other is known by all of its letters. -/
def ofChars (cs : List Char) : Word :=
  let name := cs.map Char.toLower
  match monthNames.findIdx? (·.toList = name.take 3) with
  | some i => month (i + 1)
  | none => ofName (String.ofList name)

end Word

inductive Token where
  | number (value length : Nat)
  | mark (m : Mark)
  | word (w : Word)
  | blank
  | other
deriving DecidableEq, Repr

def countedDigits : Nat := 9

def Token.ofDigits (ds : List Char) : Token :=
  .number (Number.ofDigits ((ds.dropWhile (· = '0')).take countedDigits)) ds.length

/-- Whether a character is part of a word: a letter or any character behind the capitals that is no
space. -/
def isWordChar (c : Char) : Bool :=
  'A' ≤ c && (!Text.isBlank c || Text.isLineBreak c)

/-- What has been read of a token that is not complete. -/
inductive Scan where
  | idle
  | number (ds : List Char)
  | word (cs : List Char)
  | parentheses (depth : Nat)

namespace Scan

def finish : Scan → List Token
  | idle => []
  | number ds => [.ofDigits ds]
  | word cs => [.word (.ofChars cs)]
  | parentheses _ => [.other]

def start (c : Char) : List Token × Scan :=
  if c.isDigit then ([], number [c])
  else
    match Mark.ofChar? c with
    | some m => ([.mark m], idle)
    | none =>
      if isWordChar c then ([], word [c])
      else if Text.isBlank c then ([.blank], idle)
      else if c = '(' then ([], parentheses 0)
      else ([.other], idle)

def restart (s : Scan) (c : Char) : List Token × Scan :=
  (s.finish ++ (start c).1, (start c).2)

def next : Scan → Char → List Token × Scan
  | idle, c => start c
  | number ds, c => if c.isDigit then ([], number (ds ++ [c])) else restart (number ds) c
  | word cs, c => if isWordChar c then ([], word (cs ++ [c])) else restart (word cs) c
  | parentheses depth, c =>
    if c = '(' then ([], parentheses (depth + 1))
    else if c = ')' then
      match depth with
      | 0 => ([.other], idle)
      | depth + 1 => ([], parentheses depth)
    else ([], parentheses depth)

def tokens : Scan → List Char → List Token
  | s, [] => s.finish
  | s, c :: cs => (s.next c).1 ++ tokens (s.next c).2 cs

end Scan

/-- The tokens of a text, up to its first null character. -/
def tokens (cs : List Char) : List Token := Scan.idle.tokens (cs.takeWhile (· ≠ '\x00'))

end VisaEligibility.Instant
