import VisaEligibility.Fact.Basic
/-!
The text that context is searched by: the visa code first, then the facts in the order of their
names.
-/
set_option autoImplicit false

namespace VisaEligibility.Retrieval

def defaultQuery : String := "immigration eligibility requirements"

def spaced (name : String) : String :=
  String.ofList (name.toList.map fun c => if c = '_' then ' ' else c)

def factParts (facts : Facts) : List String → Except Failure (List String)
  | [] => .ok []
  | name :: names =>
    match facts.get? name with
    | none => factParts facts names
    | some v => do
      let text ← v.factText
      let rest ← factParts facts names
      return (spaced name ++ ": " ++ text) :: rest

def codePart (visaCode : Option String) : List String :=
  match visaCode with
  | some code => if code.isEmpty then [] else ["visa type: " ++ code]
  | none => []

/-- The search text of a case. An invalid instant has no text and is refused. -/
def query (facts : Facts) (visaCode : Option String) : Except Failure String := do
  let parts ← factParts facts facts.sortedNames
  let all := codePart visaCode ++ parts
  return if all.isEmpty then defaultQuery else String.intercalate ", " all

end VisaEligibility.Retrieval
