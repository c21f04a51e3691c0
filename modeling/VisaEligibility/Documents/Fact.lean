import VisaEligibility.Fact.Basic
/-!
Stored facts. The latest document of a key that holds a scalar counts; other documents are skipped.
-/
set_option autoImplicit false

namespace VisaEligibility

structure FactDocument where
  key : String
  value : Value
deriving Repr, Inhabited

namespace FactDocument

def ofValue (v : Value) : FactDocument := ⟨(v.field "fact_key").display, v.field "fact_value"⟩

end FactDocument

namespace Facts

def addDocument (f : Facts) (d : FactDocument) : Facts :=
  match Scalar.check d.value with
  | .ok s => f.put d.key (some s)
  | .error _ => f

def ofDocuments (ds : List FactDocument) : Facts := ds.foldl addDocument empty

end Facts
end VisaEligibility
