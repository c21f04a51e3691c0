import VisaEligibility.Expression.Basic
import VisaEligibility.Expression.Measure
import VisaEligibility.Validation.Issue
/-!
Reading raw trees as expressions. A tree that is too large is refused before it is read; otherwise
the first fault in reading order is reported with the path to it.
-/
set_option autoImplicit false

namespace VisaEligibility.Expression

def operatorNames : List String := ["var", "literal", "compare", "and", "or", "not", "in"]

def readChoice {α : Type} (ofName? : String → Option α) (names : List String) (v : Value) :
    Except Issue α :=
  match v with
  | .text s =>
    match ofName? s with
    | some a => .ok a
    | none => .error ⟨[], "Invalid enum value. Expected " ++ alternatives names ++
        ", received '" ++ s ++ "'"⟩
  | v => .error ⟨[], wrongKind (alternatives names) v⟩

def readScalar (v : Value) : Except Issue Scalar :=
  match Scalar.check v with
  | .ok s => .ok s
  | .error r => .error ⟨[], r.message⟩

def readScalars (i : Nat) : List Value → Except Issue (List Scalar)
  | [] => .ok []
  | v :: vs => do
    let s ← (readScalar v).mapError (Issue.under (toString i))
    let ss ← readScalars (i + 1) vs
    .ok (s :: ss)

def readName (v : Value) : Except Issue String :=
  match v with
  | .text s =>
    if s.isEmpty then .error ⟨[], "String must contain at least 1 character(s)"⟩ else .ok s
  | v => .error ⟨[], wrongKind "string" v⟩

def readType (v : Value) : Except Issue (Option ScalarKind) :=
  match v with
  | .undefined => .ok none
  | v => (readChoice ScalarKind.ofName? (ScalarKind.all.map ScalarKind.name) v).map some

def readOptions (v : Value) : Except Issue (List Scalar) :=
  match v with
  | .list vs => readScalars 0 vs
  | v => .error ⟨[], wrongKind "array" v⟩

def within {α : Type} (key : String) (r : Except Issue α) : Except Issue α :=
  r.mapError (Issue.under key)

theorem sizeOf_get?_lt {fields : List (String × Value)} {key : String} {v : Value}
    (h : Entries.get? fields key = some v) : sizeOf v < sizeOf fields := by
  induction fields with
  | nil => simp at h
  | cons e rest ih =>
    by_cases hk : e.1 = key
    · simp [Entries.get?, hk] at h
      subst h
      obtain ⟨k, v⟩ := e
      simp
      omega
    · have : sizeOf v < sizeOf rest := ih (by simpa [Entries.get?, hk] using h)
      simp
      omega

theorem sizeOf_field_lt (fields : List (String × Value)) (key : String) :
    sizeOf ((Value.record fields).field key) < sizeOf (Value.record fields) := by
  cases h : Entries.get? fields key with
  | none =>
    cases fields with
    | nil => simp [Value.field, h]
    | cons e rest =>
      simp only [Value.field, h, Option.getD_none, Value.undefined.sizeOf_spec,
        Value.record.sizeOf_spec, List.cons.sizeOf_spec]
      omega
  | some v =>
    have hv := sizeOf_get?_lt h
    simp only [Value.field, h, Option.getD_some, Value.record.sizeOf_spec]
    omega

mutual

/-- Reads a raw tree, its size unchecked. -/
def read (raw : Value) : Except Issue Expression :=
  match raw with
  | .record fields =>
    let get := fun key => (Value.record fields).field key
    match get "op" with
    | .text "var" => do
      let n ← within "name" (readName (get "name"))
      let t ← within "type" (readType (get "type"))
      .ok (.var n t)
    | .text "literal" => do
      let v ← within "value" (readScalar (get "value"))
      .ok (.literal v)
    | .text "compare" => do
      let c ← within "operator" (readChoice Comparison.ofName? (Comparison.all.map Comparison.name)
        (get "operator"))
      let l ← within "left" (read ((Value.record fields).field "left"))
      let r ← within "right" (read ((Value.record fields).field "right"))
      .ok (.compare c l r)
    | .text "and" => do
      let es ← within "operands" (readOperands ((Value.record fields).field "operands"))
      .ok (.and es)
    | .text "or" => do
      let es ← within "operands" (readOperands ((Value.record fields).field "operands"))
      .ok (.or es)
    | .text "not" => do
      let e ← within "operand" (read ((Value.record fields).field "operand"))
      .ok (.not e)
    | .text "in" => do
      let v ← within "value" (read ((Value.record fields).field "value"))
      let os ← within "options" (readOptions (get "options"))
      .ok (.member v os)
    | _ => .error ⟨["op"], "Invalid discriminator value. Expected " ++ alternatives operatorNames⟩
  | raw => .error ⟨[], wrongKind "object" raw⟩
termination_by (sizeOf raw, 0)
decreasing_by
  all_goals exact Prod.Lex.left _ _ (sizeOf_field_lt fields _)

def readOperands (raw : Value) : Except Issue (List Expression) :=
  match raw with
  | .list [] => .error ⟨[], "Array must contain at least 1 element(s)"⟩
  | .list (v :: vs) => readAll 0 (v :: vs)
  | raw => .error ⟨[], wrongKind "array" raw⟩
termination_by (sizeOf raw, 0)
decreasing_by
  apply Prod.Lex.left
  simp

def readAll (i : Nat) (raws : List Value) : Except Issue (List Expression) :=
  match raws with
  | [] => .ok []
  | v :: vs => do
    let e ← within (toString i) (read v)
    let es ← readAll (i + 1) vs
    .ok (e :: es)
termination_by (sizeOf raws, 1)
decreasing_by
  all_goals
    apply Prod.Lex.left
    simp only [List.cons.sizeOf_spec]
    omega

end

inductive Refusal where
  | tooLarge (excess : Excess)
  | invalid (issue : Issue)
deriving DecidableEq, Repr

def Refusal.message : Refusal → String
  | tooLarge e => e.message
  | invalid i =>
    let path := if i.path.isEmpty then "" else " at " ++ String.intercalate "." i.path
    "Invalid expression" ++ path ++ ": " ++ i.message

/-- Reads a raw tree within the limits of depth and size. -/
def ofValue (raw : Value) : Except Refusal Expression :=
  match (Measure.ofValue raw).excess with
  | some e => .error (.tooLarge e)
  | none => (read raw).mapError .invalid

end VisaEligibility.Expression
