import VisaEligibility.Failure.Basic
/-!
Clients of the model services. A service without a client of its own needs a key, and all services
with one key share the client made last, which never retries by itself.
-/
set_option autoImplicit false

namespace VisaEligibility.Provider

def name : String := "openai"

structure Client where
  number : Nat
  apiKey : String
  maxRetries : Nat := 0
deriving DecidableEq, Repr

/-- The client made last and how many were made. -/
structure SharedClient where
  current : Option Client := none
  made : Nat := 0
deriving DecidableEq, Repr

namespace SharedClient

def get (apiKey : String) (s : SharedClient) : Client × SharedClient :=
  match s.current with
  | some c => if c.apiKey = apiKey then (c, s) else fresh
  | none => fresh
where
  fresh : Client × SharedClient :=
    let c : Client := { number := s.made, apiKey }
    (c, ⟨some c, s.made + 1⟩)

def getAll : List String → SharedClient → List Client
  | [], _ => []
  | k :: ks, s =>
    let (c, s) := s.get k
    c :: getAll ks s

end SharedClient

def notConfigured (service : String) : Failure :=
  .serviceUnavailable (service ++ " not configured")
    (some [("missing", .texts ["OPENAI_API_KEY"])])

/-- Whether a service can be called: it has a client of its own, or a key. -/
def isConfigured (hasClient : Bool) (apiKey : Option String) : Bool :=
  hasClient || apiKey.any fun k => !k.isEmpty

def malformedReply : Failure := ⟨.type, "", []⟩

end VisaEligibility.Provider
