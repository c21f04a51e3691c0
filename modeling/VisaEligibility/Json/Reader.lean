import VisaEligibility.Json.Token
import VisaEligibility.Value
/-!
Reading JSON text as a value. The reader keeps the containers still open and what may come next.
-/
set_option autoImplicit false

namespace VisaEligibility.Json

/-- An open container; what it holds so far stands in reverse. -/
inductive Frame where
  | list (items : List Value)
  | record (fields : List (String × Value)) (key : String)

inductive Awaited where
  | item
  | itemOrClose
  | separator
  | key
  | keyOrClose
  | colon (key : String)
  | done (value : Value)

structure Reading where
  frames : List Frame
  awaited : Awaited

def place (v : Value) : List Frame → Reading
  | [] => ⟨[], .done v⟩
  | .list items :: rest => ⟨.list (v :: items) :: rest, .separator⟩
  | .record fields key :: rest => ⟨.record ((key, v) :: fields) key :: rest, .separator⟩

/-- A numeral: no leading zero, digits on both sides of a point. -/
def numeral? (cs : List Char) : Option Number :=
  let body := if cs.head? = some '-' then cs.drop 1 else cs
  let (whole, rest) := Number.spanDigits body
  let leadingZero := whole.length > 1 && whole.head? = some '0'
  let pointOk :=
    match rest with
    | '.' :: d :: _ => d.isDigit
    | '.' :: [] => false
    | _ => true
  if whole.isEmpty || leadingZero || !pointOk then none
  else
    match Number.takeNumeral? cs with
    | some (v, []) => some v
    | _ => none

def word? (cs : List Char) : Option Value :=
  if cs = "null".toList then some .null
  else if cs = "true".toList then some (.bool true)
  else if cs = "false".toList then some (.bool false)
  else (numeral? cs).map .number

def closeList? : List Frame → Option Reading
  | .list items :: rest => some (place (.list items.reverse) rest)
  | _ => none

def closeRecord? : List Frame → Option Reading
  | .record fields _ :: rest => some (place (.record (Value.propertyOrder fields.reverse)) rest)
  | _ => none

def item? (frames : List Frame) : Token → Option Reading
  | .text s => some (place (.text s) frames)
  | .word cs => (word? cs).map fun v => place v frames
  | .openList => some ⟨.list [] :: frames, .itemOrClose⟩
  | .openRecord => some ⟨.record [] "" :: frames, .keyOrClose⟩
  | _ => none

def read? (r : Reading) (t : Token) : Option Reading :=
  match r.awaited, t with
  | .item, t => item? r.frames t
  | .itemOrClose, .closeList => closeList? r.frames
  | .itemOrClose, t => item? r.frames t
  | .key, .text k => some ⟨r.frames, .colon k⟩
  | .keyOrClose, .text k => some ⟨r.frames, .colon k⟩
  | .keyOrClose, .closeRecord => closeRecord? r.frames
  | .colon k, .colon =>
    match r.frames with
    | .record fields _ :: rest => some ⟨.record fields k :: rest, .item⟩
    | _ => none
  | .separator, .comma =>
    match r.frames with
    | .list _ :: _ => some ⟨r.frames, .item⟩
    | .record _ _ :: _ => some ⟨r.frames, .key⟩
    | [] => none
  | .separator, .closeList => closeList? r.frames
  | .separator, .closeRecord => closeRecord? r.frames
  | _, _ => none

def ofText? (s : String) : Option Value := do
  let tokens ← Token.ofText? s.toList
  let r ← tokens.foldlM read? ⟨[], .item⟩
  match r.awaited with
  | .done v => some v
  | _ => none

end VisaEligibility.Json
