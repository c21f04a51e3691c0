import VisaEligibility.Json.Printer
import VisaEligibility.Failure.Basic
/-!
Scalars: the values of facts and of literals in expressions.
-/
set_option autoImplicit false

namespace VisaEligibility

inductive Scalar where
  | number (value : Number)
  | text (value : String)
  | bool (value : Bool)
  | date (value : Instant)
deriving DecidableEq, Repr, Inhabited

inductive ScalarKind where
  | number
  | string
  | boolean
  | date
deriving DecidableEq, Repr

namespace ScalarKind

def name : ScalarKind → String
  | number => "number"
  | string => "string"
  | boolean => "boolean"
  | date => "date"

def all : List ScalarKind := [number, string, boolean, date]

def ofName? (s : String) : Option ScalarKind := all.find? fun k => k.name == s

end ScalarKind

namespace Scalar

def kind : Scalar → ScalarKind
  | number _ => .number
  | text _ => .string
  | bool _ => .boolean
  | date _ => .date

/-- The scalar as plain text; an instant in its long form. -/
def display : Scalar → String
  | number x => x.text
  | text s => s
  | bool b => if b then "true" else "false"
  | date d => d.longText

def describe : Scalar → String
  | number x => x.text
  | text s => Json.quote s
  | bool b => if b then "true" else "false"
  | date d => d.timestamp?.getD "Invalid Date"

def toValue : Scalar → Value
  | number x => .number x
  | text s => .text s
  | bool b => .bool b
  | date d => .date d

/-- Reads any scalar, `nan`, infinities and the invalid instant included. -/
def ofValue? : Value → Option Scalar
  | .number x => some (number x)
  | .text s => some (text s)
  | .bool b => some (bool b)
  | .date d => some (date d)
  | _ => none

inductive Refusal where
  | notFinite
  | notScalar
deriving DecidableEq, Repr

def Refusal.message : Refusal → String
  | notFinite => "Number must be finite"
  | notScalar => "Invalid input"

/-- Reads a scalar that may be stored: a finite number, a text, a truth value or a valid instant. -/
def check : Value → Except Refusal Scalar
  | .number x =>
    if x.isFinite then .ok (number x) else .error (if x.isNaN then .notScalar else .notFinite)
  | .text s => .ok (text s)
  | .bool b => .ok (bool b)
  | .date (.ofMillis ms) => .ok (date (.ofMillis ms))
  | _ => .error .notScalar

def isStorable : Scalar → Bool
  | number x => x.isFinite
  | date d => d.isValid
  | _ => true

theorem check_toValue (s : Scalar) (h : s.isStorable = true) : check s.toValue = .ok s := by
  cases s with
  | number x => cases x <;> simp_all [isStorable, Number.isFinite, toValue, check]
  | text s => rfl
  | bool b => rfl
  | date d => cases d <;> simp_all [isStorable, Instant.isValid, toValue, check]

theorem eq_toValue_of_check {v : Value} {s : Scalar} (h : check v = .ok s) :
    v = s.toValue ∧ s.isStorable = true := by
  unfold check at h
  split at h
  · rename_i x
    by_cases hx : x.isFinite = true
    · simp only [hx, if_true, Except.ok.injEq] at h
      subst h
      exact ⟨rfl, hx⟩
    · simp [hx] at h
  all_goals cases h
  all_goals exact ⟨rfl, rfl⟩

/-- The text of a fact in queries and prompts: an instant as its calendar day. -/
def factText : Scalar → Except Failure String
  | date d => (d.day?).elim (.error .invalidTime) .ok
  | s => .ok s.display

end Scalar
end VisaEligibility
