/-!
Media types of request bodies: a type and a subtype, in any case, followed by parameters.
-/
set_option autoImplicit false

namespace VisaEligibility.Web

structure MediaType where
  name : String
  parameters : List (String × String)
deriving DecidableEq, Repr

namespace MediaType

def isTokenChar (c : Char) : Bool := c.isAlphanum || "!#$%&'*+-.^_`|~".toList.contains c

def dropSpaces (cs : List Char) : List Char := cs.dropWhile (· = ' ')

/-- The token at the start, with what follows; `none` where there is none. -/
def token? (cs : List Char) : Option (String × List Char) :=
  match cs.span isTokenChar with
  | ([], _) => none
  | (t, rest) => some (String.ofList t, rest)

def quoted? : List Char → Option (List Char × List Char)
  | [] => none
  | '"' :: rest => some ([], rest)
  | '\\' :: c :: rest => (quoted? rest).map fun p => (c :: p.1, p.2)
  | c :: rest => (quoted? rest).map fun p => (c :: p.1, p.2)

def parameterValue? (cs : List Char) : Option (String × List Char) :=
  match cs with
  | '"' :: rest => (quoted? rest).map fun p => (String.ofList p.1, p.2)
  | cs => token? cs

def parameter? (cs : List Char) : Option ((String × String) × List Char) :=
  match cs with
  | ';' :: rest => do
    let (name, rest) ← token? (dropSpaces rest)
    match dropSpaces rest with
    | '=' :: rest =>
      let (value, rest) ← parameterValue? (dropSpaces rest)
      some ((name.toLower, value), dropSpaces rest)
    | _ => none
  | _ => none

def parameters? : Nat → List Char → Option (List (String × String))
  | _, [] => some []
  | 0, _ :: _ => none
  | n + 1, cs => do
    let (p, rest) ← parameter? cs
    return p :: (← parameters? n rest)

def ofText? (s : String) : Option MediaType := do
  let (type, rest) ← token? (dropSpaces s.toList)
  match rest with
  | '/' :: rest =>
    let (subtype, rest) ← token? rest
    let rest := dropSpaces rest
    return ⟨(type ++ "/" ++ subtype).toLower, ← parameters? rest.length rest⟩
  | _ => none

/-- The last value given to a parameter. -/
def parameter (m : MediaType) (name : String) : Option String :=
  (m.parameters.reverse.find? fun p => p.1 == name).map Prod.snd

def isJson (m : MediaType) : Bool := m.name == "application/json"

end MediaType
end VisaEligibility.Web
