import VisaEligibility.Fact.Scalar
import VisaEligibility.Text.Units
/-!
The facts of a case, keyed by name in the order they were recorded. A fact may be recorded
without a value; it is then present and has nothing to be read.
-/
set_option autoImplicit false

namespace VisaEligibility

structure Facts where
  entries : List (String × Option Scalar)
deriving DecidableEq, Repr, Inhabited

namespace Facts

def empty : Facts := ⟨[]⟩

def has (f : Facts) (name : String) : Bool := Entries.has f.entries name

/-- The value of a fact that is present and has one. -/
def get? (f : Facts) (name : String) : Option Scalar := (Entries.get? f.entries name).join

def put (f : Facts) (name : String) (value : Option Scalar) : Facts :=
  ⟨Entries.put f.entries name value⟩

/-- Every fact that is present has a value. -/
def Complete (f : Facts) : Prop := ∀ name, f.has name = true → (f.get? name).isSome = true

/-- No fact is the invalid instant. -/
def Dated (facts : Facts) : Prop := ∀ name, facts.get? name ≠ some (.date .invalid)

/-- The names in the order of their code units. -/
def sortedNames (f : Facts) : List String := (Entries.keys f.entries).mergeSort Text.unitLe

def ofValue (v : Value) : Facts :=
  match v with
  | .record fields => ⟨fields.map fun e => (e.1, Scalar.ofValue? e.2)⟩
  | _ => empty

def toEntries (f : Facts) : List (String × Value) :=
  f.entries.map fun e => (e.1, Value.ofOption Scalar.toValue e.2)

end Facts
end VisaEligibility
