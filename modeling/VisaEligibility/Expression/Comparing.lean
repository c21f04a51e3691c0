import VisaEligibility.Expression.Basic
import VisaEligibility.Text.Units
/-!
Comparing scalars. A declared type is applied to both sides first. Without one, scalars of one
kind compare natively, then an instant with a date text, then numbers with numeric texts; anything
else can be equal by its text but not ordered.
-/
set_option autoImplicit false

namespace VisaEligibility

inductive EvaluationError where
  | notCoercible (value : Scalar) (type : ScalarKind)
  | notFinite (value : Number)
  | unorderedBooleans (operator : Comparison)
  | unordered (operator : Comparison) (left right : Scalar)
  | unavailable (name : String)
  | notBoolean (reference : Option String) (value : Scalar)
  | invalidTime
deriving DecidableEq, Repr

namespace EvaluationError

def message : EvaluationError → String
  | notCoercible v t => "Cannot coerce " ++ v.describe ++ " to " ++ t.name
  | notFinite x => "Cannot compare non-finite number " ++ x.text
  | unorderedBooleans c => "Operator '" ++ c.name ++ "' cannot order boolean values"
  | unordered c l r => "Operator '" ++ c.name ++ "' cannot order " ++ l.kind.name ++ " " ++
      l.describe ++ " and " ++ r.kind.name ++ " " ++ r.describe
  | unavailable n => "Fact '" ++ n ++ "' is not available"
  | notBoolean (some n) v => "Fact '" ++ n ++ "' must be a boolean, got " ++ v.describe
  | notBoolean none v => "Literal must be a boolean, got " ++ v.describe
  | invalidTime => Failure.invalidTime.message

def context : EvaluationError → List (String × Value)
  | notCoercible _ t => [("declaredType", .text t.name)]
  | notFinite x => [("value", .text x.text)]
  | unorderedBooleans c => [("operator", .text c.name)]
  | unordered c l r => [("operator", .text c.name), ("leftKind", .text l.kind.name),
      ("rightKind", .text r.kind.name)]
  | unavailable n => [("variable", .text n)]
  | notBoolean n _ => [("op", .text (if n.isSome then "var" else "literal"))]
  | invalidTime => []

/-- Whether the error belongs to the evaluation, rather than to writing an invalid instant. -/
def isScoped : EvaluationError → Bool
  | invalidTime => false
  | _ => true

def toFailure : EvaluationError → Failure
  | invalidTime => .invalidTime
  | e => .evaluation e.message (some e.context)

end EvaluationError

namespace Scalar

/-- The finite number a scalar stands for. -/
def toNumber? : Scalar → Option Number
  | number x => if x.isFinite then some x else none
  | text s =>
    let cs := Text.trimChars s.toList
    if cs.isEmpty then none
    else
      let x := Number.ofTrimmed cs
      if x.isFinite then some x else none
  | _ => none

def toInstant? : Scalar → Option Instant
  | date d => if d.isValid then some d else none
  | text s =>
    let t := Text.trim s
    if t.isEmpty then none
    else
      let d := Instant.ofText t .universal
      if d.isValid then some d else none
  | _ => none

def toBool? : Scalar → Option Bool
  | bool b => some b
  | text s =>
    let t := Text.lower (Text.trim s)
    if t = "true" then some true else if t = "false" then some false else none
  | _ => none

def coerce (v : Scalar) (type : ScalarKind) : Except EvaluationError Scalar :=
  match type with
  | .number => (v.toNumber?.map number).elim (.error (.notCoercible v .number)) .ok
  | .date => (v.toInstant?.map date).elim (.error (.notCoercible v .date)) .ok
  | .boolean => (v.toBool?.map bool).elim (.error (.notCoercible v .boolean)) .ok
  | .string =>
    match v with
    | date d => (d.timestamp?.map text).elim (.error .invalidTime) .ok
    | v => .ok (text v.display)

def orderNumbers (a b : Number) : Except EvaluationError Ordering :=
  if !a.isFinite then .error (.notFinite a)
  else if !b.isFinite then .error (.notFinite b)
  else .ok ((a.order? b).getD .eq)

/-- Compares scalars of one kind; those of different kinds have no order. -/
def compareAlike (c : Comparison) (l r : Scalar) : Except EvaluationError Bool :=
  match l, r with
  | date a, date b => (orderNumbers a.toNumber b.toNumber).map c.holds
  | number a, number b => (orderNumbers a b).map c.holds
  | text a, text b => .ok (c.holds (Text.unitOrder a b))
  | bool a, bool b =>
    match c with
    | .eq => .ok (a == b)
    | .ne => .ok (a != b)
    | c => .error (.unorderedBooleans c)
  | l, r => .error (.unordered c l r)

/-- The instants of two scalars, when one is an instant and both stand for one. -/
def instants? (l r : Scalar) : Option (Instant × Instant) :=
  if l.kind = .date || r.kind = .date then
    match l.toInstant?, r.toInstant? with
    | some a, some b => some (a, b)
    | _, _ => none
  else none

def numbers? (l r : Scalar) : Option (Number × Number) :=
  match l.toNumber?, r.toNumber? with
  | some a, some b => some (a, b)
  | _, _ => none

def compareUnlike (c : Comparison) (l r : Scalar) : Except EvaluationError Bool :=
  match instants? l r with
  | some (a, b) => compareAlike c (date a) (date b)
  | none =>
    match numbers? l r with
    | some (a, b) => (orderNumbers a b).map c.holds
    | none =>
      match c with
      | .eq => .ok (l.display == r.display)
      | .ne => .ok (l.display != r.display)
      | c => .error (.unordered c l r)

def compare (c : Comparison) (l r : Scalar) (type : Option ScalarKind) :
    Except EvaluationError Bool :=
  match type with
  | some t => do
    let l ← l.coerce t
    let r ← r.coerce t
    compareAlike c l r
  | none => if l.kind = r.kind then compareAlike c l r else compareUnlike c l r

end Scalar
end VisaEligibility
