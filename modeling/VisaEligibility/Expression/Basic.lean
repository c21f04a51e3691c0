import VisaEligibility.Distinct
import VisaEligibility.Fact.Basic
/-!
Requirement expressions: fact references, literals, comparisons, conjunction, disjunction,
negation and membership in a list of options.
-/
set_option autoImplicit false

namespace VisaEligibility

inductive Comparison where
  | eq
  | ne
  | gt
  | ge
  | lt
  | le
deriving DecidableEq, Repr

namespace Comparison

def name : Comparison → String
  | eq => "=="
  | ne => "!="
  | gt => ">"
  | ge => ">="
  | lt => "<"
  | le => "<="

def all : List Comparison := [eq, ne, gt, ge, lt, le]

def ofName? (s : String) : Option Comparison := all.find? fun c => c.name == s

def holds : Comparison → Ordering → Bool
  | eq, o => o == .eq
  | ne, o => o != .eq
  | gt, o => o == .gt
  | ge, o => o != .lt
  | lt, o => o == .lt
  | le, o => o != .gt

def complement : Comparison → Comparison
  | eq => ne
  | ne => eq
  | gt => le
  | ge => lt
  | lt => ge
  | le => gt

def swapped : Comparison → Comparison
  | eq => eq
  | ne => ne
  | gt => lt
  | ge => le
  | lt => gt
  | le => ge

theorem holds_complement (c : Comparison) (o : Ordering) : c.complement.holds o = !c.holds o := by
  cases c <;> cases o <;> rfl

theorem holds_swapped (c : Comparison) (o : Ordering) : c.swapped.holds o.swap = c.holds o := by
  cases c <;> cases o <;> rfl

end Comparison

inductive Expression where
  | var (name : String) (type : Option ScalarKind)
  | literal (value : Scalar)
  | compare (operator : Comparison) (left right : Expression)
  | and (operands : List Expression)
  | or (operands : List Expression)
  | not (operand : Expression)
  | member (value : Expression) (options : List Scalar)
deriving Repr, Inhabited

namespace Expression

mutual

/-- The fact names an expression refers to, in order, repetitions kept. -/
def names : Expression → List String
  | var n _ => [n]
  | literal _ => []
  | compare _ l r => l.names ++ r.names
  | and es => namesOf es
  | or es => namesOf es
  | not e => e.names
  | member v _ => v.names

def namesOf : List Expression → List String
  | [] => []
  | e :: es => e.names ++ namesOf es

end

def factNames (e : Expression) : List String := distinct e.names

def declaredType : Expression → Option ScalarKind
  | var _ t => t
  | _ => none

mutual

def toValue : Expression → Value
  | var n t => .record (("op", .text "var") :: ("name", .text n) ::
      match t with
      | some k => [("type", .text k.name)]
      | none => [])
  | literal v => .record [("op", .text "literal"), ("value", v.toValue)]
  | compare c l r => .record [("op", .text "compare"), ("operator", .text c.name),
      ("left", l.toValue), ("right", r.toValue)]
  | and es => .record [("op", .text "and"), ("operands", .list (toValues es))]
  | or es => .record [("op", .text "or"), ("operands", .list (toValues es))]
  | not e => .record [("op", .text "not"), ("operand", e.toValue)]
  | member v os => .record [("op", .text "in"), ("value", v.toValue),
      ("options", .list (os.map Scalar.toValue))]

def toValues : List Expression → List Value
  | [] => []
  | e :: es => e.toValue :: toValues es

end

end Expression
end VisaEligibility
