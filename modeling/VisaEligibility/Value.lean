import VisaEligibility.Entries
import VisaEligibility.Calendar.Reading
/-!
Dynamic values: request bodies, stored documents and raw expressions before they are checked.
The fields of a record stand in property order: keys that are array indices first, ascending, then
the others as they were written.
-/
set_option autoImplicit false

namespace VisaEligibility

inductive Value where
  | null
  | undefined
  | bool (value : Bool)
  | number (value : Number)
  | text (value : String)
  | date (value : Instant)
  | list (items : List Value)
  | record (fields : List (String × Value))
deriving Repr, Inhabited

namespace Value

def kind : Value → String
  | null => "null"
  | undefined => "undefined"
  | bool _ => "boolean"
  | number x => if x.isNaN then "nan" else "number"
  | text _ => "string"
  | date _ => "date"
  | list _ => "array"
  | record _ => "object"

def field (v : Value) (key : String) : Value :=
  match v with
  | record fields => (Entries.get? fields key).getD undefined
  | _ => undefined

def field? (v : Value) (key : String) : Option Value :=
  match v.field key with
  | undefined => none
  | w => some w

def text? : Value → Option String
  | text s => some s
  | _ => none

def bool? : Value → Option Bool
  | bool b => some b
  | _ => none

def number? : Value → Option Number
  | number x => some x
  | _ => none

def date? : Value → Option Instant
  | date d => some d
  | _ => none

def list? : Value → Option (List Value)
  | list vs => some vs
  | _ => none

def fields? : Value → Option (List (String × Value))
  | record fs => some fs
  | _ => none

def isNullish : Value → Bool
  | null => true
  | undefined => true
  | _ => false

/-- Whether a value counts as present: not nullish, not `false`, not zero or `nan`, not empty text. -/
def truthy : Value → Bool
  | null => false
  | undefined => false
  | bool b => b
  | number x => !x.isNaN && !x.isZero
  | text s => !s.isEmpty
  | _ => true

def at? {α : Type} (read : Value → α) (v : Value) (key : String) : Option α :=
  let w := v.field key
  if w.isNullish then none else some (read w)

def textAt (v : Value) (key : String) (fallback : String := "") : String :=
  (v.at? (fun w => w.text?.getD "") key).getD fallback

def numberAt (v : Value) (key : String) (fallback : Number := .nan) : Number :=
  (v.at? (fun w => w.number?.getD .nan) key).getD fallback

def flagAt (v : Value) (key : String) (fallback : Bool := false) : Bool :=
  (v.at? (fun w => w.bool?.getD false) key).getD fallback

def dateAt (v : Value) (key : String) : Instant := ((v.field key).date?).getD .invalid

def itemsAt (v : Value) (key : String) : List Value := ((v.field key).list?).getD []

def textsAt (v : Value) (key : String) : List String := (v.itemsAt key).filterMap text?

/-- The whole number of a field, fractions dropped and nothing below zero. -/
def natAt (v : Value) (key : String) (fallback : Nat := 0) : Nat :=
  (v.at? (fun w => ((w.number?.bind Number.truncate?).getD 0).toNat) key).getD fallback

def fieldsAt (v : Value) (key : String) : List (String × Value) := ((v.field key).fields?).getD []

def ofOption {α : Type} (f : α → Value) : Option α → Value
  | some a => f a
  | none => undefined

def texts (ss : List String) : Value := list (ss.map text)

def nat (n : Nat) : Value := number n

mutual

/-- A value as plain text: lists join their items by commas, records have one name. -/
def display : Value → String
  | null => "null"
  | undefined => "undefined"
  | bool b => if b then "true" else "false"
  | number x => x.text
  | text s => s
  | date d => d.longText
  | list vs => String.intercalate "," (displayItems vs)
  | record _ => "[object Object]"

def displayItems : List Value → List String
  | [] => []
  | v :: vs => (if v.isNullish then "" else display v) :: displayItems vs

end

mutual

/-- Whether a value can be shown as plain text: a record with a field `toString` cannot, and
neither can a list with such an item. -/
def hasText : Value → Bool
  | list vs => itemsHaveText vs
  | record fields => !Entries.has fields "toString"
  | _ => true

def itemsHaveText : List Value → Bool
  | [] => true
  | v :: vs => v.hasText && itemsHaveText vs

end

def maxIndex : Nat := 4294967294

/-- The index a key stands for, when it is written as an array index. -/
def index? (key : String) : Option Nat :=
  let ds := key.toList
  if ds.isEmpty || !ds.all Char.isDigit || (ds.length > 1 && ds.head? = some '0') then none
  else
    let n := Number.ofDigits ds
    if n ≤ maxIndex then some n else none

def indexLe (a b : String × Value) : Bool :=
  match index? a.1, index? b.1 with
  | some i, some j => i ≤ j
  | _, _ => true

/-- Fields in property order, each key once with the value put last. -/
def propertyOrder (fields : List (String × Value)) : List (String × Value) :=
  let unique := Entries.ofList fields
  let (indices, names) := unique.partition fun f => (index? f.1).isSome
  indices.mergeSort indexLe ++ names

def ofFields (fields : List (String × Value)) : Value :=
  record (fields.filter fun f => match f.2 with | undefined => false | _ => true)

end Value
end VisaEligibility
