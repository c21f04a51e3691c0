import VisaEligibility.Value
/-!
Measuring a raw tree before it is read. Lists and records are nodes; the children of a record lie
one level deeper, those of a list on its own level. Measuring stops at the first node past a limit.
-/
set_option autoImplicit false

namespace VisaEligibility.Expression

def maxDepth : Number := 20

def maxNodes : Number := 1000

inductive Excess where
  | depth (limit : Number)
  | nodes (limit : Number)
deriving DecidableEq, Repr

def Excess.message : Excess → String
  | depth n => "Expression exceeds maximum depth of " ++ n.text
  | nodes n => "Expression exceeds maximum of " ++ n.text ++ " nodes"

/-- What has been measured: the number of nodes, the deepest level and the limit exceeded. -/
structure Measure where
  nodes : Nat
  depth : Nat
  excess : Option Excess
deriving DecidableEq, Repr

namespace Measure

def start : Measure := ⟨0, 0, none⟩

def enter (m : Measure) (maxDepth maxNodes : Number) (level : Nat) : Measure :=
  let nodes := m.nodes + 1
  { nodes
    depth := max m.depth level
    excess :=
      if maxDepth.lt level then some (.depth maxDepth)
      else if maxNodes.lt nodes then some (.nodes maxNodes)
      else none }

mutual

def visit (maxDepth maxNodes : Number) (m : Measure) (level : Nat) : Value → Measure
  | .list vs =>
    let m := m.enter maxDepth maxNodes level
    if m.excess.isSome then m else visitItems maxDepth maxNodes m level vs
  | .record fs =>
    let m := m.enter maxDepth maxNodes level
    if m.excess.isSome then m else visitFields maxDepth maxNodes m (level + 1) fs
  | _ => m

def visitItems (maxDepth maxNodes : Number) (m : Measure) (level : Nat) : List Value → Measure
  | [] => m
  | v :: vs =>
    let m := visit maxDepth maxNodes m level v
    if m.excess.isSome then m else visitItems maxDepth maxNodes m level vs

def visitFields (maxDepth maxNodes : Number) (m : Measure) (level : Nat) :
    List (String × Value) → Measure
  | [] => m
  | (_, v) :: fs =>
    let m := visit maxDepth maxNodes m level v
    if m.excess.isSome then m else visitFields maxDepth maxNodes m level fs

end

def ofValue (raw : Value) (maxDepth : Number := Expression.maxDepth)
    (maxNodes : Number := Expression.maxNodes) : Measure :=
  visit maxDepth maxNodes start 1 raw

end Measure
end VisaEligibility.Expression
