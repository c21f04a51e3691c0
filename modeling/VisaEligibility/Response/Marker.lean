import VisaEligibility.Text.Blank
/-!
Markers in the text of a model answer. A marker stands at the start of a line: a keyword, a colon
and a value, with white space and one run of stars allowed around each, up to the end of a line.
White space may cross lines, so a marker may spread over several.
-/
set_option autoImplicit false

namespace VisaEligibility.Response

open Text (isBlank isLineBreak)

def dropBlanks (cs : List Char) : List Char := cs.dropWhile isBlank

def dropStars (cs : List Char) : List Char := cs.dropWhile (· == '*')

/-- What follows white space, stars and white space. -/
def dropFill (cs : List Char) : List Char := dropBlanks (dropStars (dropBlanks cs))

/-- What follows a keyword, written in either case. -/
def dropKeyword? : List Char → List Char → Option (List Char)
  | [], cs => some cs
  | _ :: _, [] => none
  | k :: ks, c :: cs => if k.toLower = c.toLower then dropKeyword? ks cs else none

def afterColon? (keyword cs : List Char) : Option (List Char) := do
  let rest ← dropKeyword? keyword (dropFill cs)
  match dropFill rest with
  | ':' :: rest => some rest
  | _ => none

/-- The last end of a line within the white space at the start. -/
def lineEnd? : List Char → Option (List Char)
  | [] => some []
  | c :: cs =>
    if isBlank c then (lineEnd? cs).orElse fun _ => if isLineBreak c then some (c :: cs) else none
    else none

/-- The end of a line after white space, stars, white space, a full stop and white space; of
several the last. -/
def close? (cs : List Char) : Option (List Char) :=
  let stars := dropStars (dropBlanks cs)
  let stop := match dropBlanks stars with
    | '.' :: rest => lineEnd? rest
    | _ => none
  (stop.orElse fun _ => lineEnd? stars).orElse fun _ => lineEnd? cs

structure Marker (α : Type) where
  value : α
  rest : List Char
deriving Repr

def isLabelChar (c : Char) : Bool := c.isAlpha || c = '_' || c = ' '

/-- The shortest label at the start after which the marker can close. -/
def shortestLabel? : List Char → Option (Marker (List Char))
  | [] => none
  | c :: cs =>
    if isLabelChar c then
      match close? cs with
      | some rest => some ⟨[c], rest⟩
      | none => (shortestLabel? cs).map fun m => ⟨c :: m.value, m.rest⟩
    else none

/-- The places within the white space at the start and right after it, the last one first. -/
def places : List Char → List (List Char)
  | [] => [[]]
  | c :: cs => if isBlank c then places cs ++ [c :: cs] else [c :: cs]

/-- The label after a colon. It starts as late as it can within the white space before it. -/
def label? (cs : List Char) : Option (Marker (List Char)) :=
  (places (dropStars (dropBlanks cs)) ++ places cs).findSome? shortestLabel?

def outcomeKeyword : List Char := "outcome".toList

def confidenceKeyword : List Char := "confidence".toList

/-- The marker of an outcome; its value is the label as written. -/
def outcomeMarker? (cs : List Char) : Option (Marker (List Char)) :=
  (afterColon? outcomeKeyword cs).bind label?

structure Share where
  numeral : List Char
  percent : Bool
deriving DecidableEq, Repr

def numeral? (cs : List Char) : Option (List Char × List Char) :=
  let (sign, body) := match cs with
    | '-' :: rest => (['-'], rest)
    | _ => ([], cs)
  match body.span Char.isDigit with
  | ([], _) => none
  | (whole, '.' :: rest) =>
    match rest.span Char.isDigit with
    | ([], _) => some (sign ++ whole, '.' :: rest)
    | (part, rest) => some (sign ++ whole ++ '.' :: part, rest)
  | (whole, rest) => some (sign ++ whole, rest)

def share? (cs : List Char) : Option (Marker Share) := do
  let (numeral, rest) ← numeral? (dropFill cs)
  let percent := match dropBlanks rest with
    | '%' :: rest => close? rest
    | _ => none
  match percent with
  | some rest => some ⟨⟨numeral, true⟩, rest⟩
  | none => (close? rest).map fun rest => ⟨⟨numeral, false⟩, rest⟩

def confidenceMarker? (cs : List Char) : Option (Marker Share) :=
  (afterColon? confidenceKeyword cs).bind share?

/-- The values of all markers from the start on; a marker begins where the one before it has ended
or later. The first number counts the characters that a marker read already covers. -/
def scan {α : Type} (marker? : List Char → Option (Marker α)) (covered : Nat) (lineStart : Bool) :
    List Char → List α
  | [] => []
  | c :: cs =>
    match covered with
    | n + 1 => scan marker? n (isLineBreak c) cs
    | 0 =>
      match if lineStart then marker? (c :: cs) else none with
      | some m => m.value :: scan marker? (cs.length - m.rest.length) (isLineBreak c) cs
      | none => scan marker? 0 (isLineBreak c) cs

def last? {α : Type} (marker? : List Char → Option (Marker α)) (text : String) : Option α :=
  (scan marker? 0 true text.toList).getLast?

/-- Whether a line starts with the keyword and colon of a marker, whatever follows. -/
def announces (line : List Char) : Bool :=
  (afterColon? outcomeKeyword line).isSome || (afterColon? confidenceKeyword line).isSome

end VisaEligibility.Response
