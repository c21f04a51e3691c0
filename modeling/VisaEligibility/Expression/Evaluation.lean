import VisaEligibility.Expression.Comparing
/-!
Evaluating expressions. An expression that refers to a fact the case lacks has no value, wherever
the reference stands; otherwise conjunctions and disjunctions stop at the first operand that
decides them.
-/
set_option autoImplicit false

namespace VisaEligibility.Expression

/-- Whether some option equals the value, up to the first that cannot be compared. -/
def isMember (v : Scalar) (type : Option ScalarKind) : List Scalar → Except EvaluationError Bool
  | [] => .ok false
  | o :: os => do
    if ← Scalar.compare .eq v o type then .ok true else isMember v type os

def fetch (facts : Facts) (name : String) (type : Option ScalarKind) :
    Except EvaluationError Scalar :=
  match facts.get? name with
  | none => .error (.unavailable name)
  | some v =>
    match type with
    | some t => v.coerce t
    | none => .ok v

def requireBool (reference : Option String) : Scalar → Except EvaluationError Bool
  | .bool b => .ok b
  | v => .error (.notBoolean reference v)

mutual

/-- The truth value of an expression whose facts are present. -/
def holds (facts : Facts) : Expression → Except EvaluationError Bool
  | var n t => do requireBool (some n) (← fetch facts n t)
  | literal v => requireBool none v
  | compare c l r => do
    let a ← scalar facts l
    let b ← scalar facts r
    Scalar.compare c a b (l.declaredType.orElse fun _ => r.declaredType)
  | and es => allHold facts es
  | or es => someHolds facts es
  | not e => do return !(← holds facts e)
  | member e os => do
    let v ← scalar facts e
    isMember v e.declaredType os

/-- The scalar of an expression: of a fact, of a literal, or a truth value. -/
def scalar (facts : Facts) : Expression → Except EvaluationError Scalar
  | var n t => fetch facts n t
  | literal v => .ok v
  | compare c l r => do
    let a ← scalar facts l
    let b ← scalar facts r
    return .bool (← Scalar.compare c a b (l.declaredType.orElse fun _ => r.declaredType))
  | and es => do return .bool (← allHold facts es)
  | or es => do return .bool (← someHolds facts es)
  | not e => do return .bool !(← holds facts e)
  | member e os => do
    let v ← scalar facts e
    return .bool (← isMember v e.declaredType os)

def allHold (facts : Facts) : List Expression → Except EvaluationError Bool
  | [] => .ok true
  | e :: es => do if ← holds facts e then allHold facts es else .ok false

def someHolds (facts : Facts) : List Expression → Except EvaluationError Bool
  | [] => .ok false
  | e :: es => do if ← holds facts e then .ok true else someHolds facts es

end

inductive Evaluation where
  | value (holds : Bool)
  | missing (names : List String)
deriving DecidableEq, Repr

namespace Evaluation

def missingNames : Evaluation → List String
  | value _ => []
  | missing ns => ns

end Evaluation

/-- The facts an expression refers to and the case lacks, in order of first appearance. -/
def missingFacts (e : Expression) (facts : Facts) : List String :=
  e.factNames.filter fun n => !facts.has n

def evaluate (e : Expression) (facts : Facts) : Except EvaluationError Evaluation :=
  match e.missingFacts facts with
  | [] => (e.holds facts).map .value
  | ns => .ok (.missing ns)

end VisaEligibility.Expression
