import VisaEligibility.Value
/-!
Faults found in a value and where they are. A check of several parts reports the faults of all.
-/
set_option autoImplicit false

namespace VisaEligibility

structure Issue where
  path : List String
  message : String
deriving DecidableEq, Repr

namespace Issue

def under (key : String) (i : Issue) : Issue := { i with path := key :: i.path }

def pathText (i : Issue) : String := String.intercalate "." i.path

def toValue (i : Issue) : Value :=
  .record [("path", .text i.pathText), ("message", .text i.message)]

end Issue

def alternatives (names : List String) : String :=
  String.intercalate " | " (names.map fun n => "'" ++ n ++ "'")

def wrongKind (expected : String) (v : Value) : String :=
  match v with
  | .undefined => "Required"
  | v => "Expected " ++ expected ++ ", received " ++ v.kind

/-- A value, or all faults found on the way to it. -/
abbrev Checked (α : Type) := Except (List Issue) α

namespace Checked

variable {α β : Type}

def issues : Checked α → List Issue
  | .ok _ => []
  | .error is => is

def fault (message : String) : Checked α := .error [⟨[], message⟩]

def under (key : String) (c : Checked α) : Checked α := c.mapError fun is => is.map (Issue.under key)

/-- Both values, or the faults of both. -/
def and (a : Checked α) (b : Checked β) : Checked (α × β) :=
  match a, b with
  | .ok x, .ok y => .ok (x, y)
  | a, b => .error (a.issues ++ b.issues)

def ofIssues (a : α) (is : List Issue) : Checked α := if is.isEmpty then .ok a else .error is

/-- Checks the items of a list, the first one under the given place. -/
def items (check : Value → Checked α) (place : Nat) : List Value → Checked (List α)
  | [] => .ok []
  | v :: vs =>
    (((check v).under (toString place)).and (items check (place + 1) vs)).map fun p => p.1 :: p.2

def optional (check : Value → Checked α) (v : Value) : Checked (Option α) :=
  match v with
  | .undefined => .ok none
  | v => (check v).map some

end Checked
end VisaEligibility
