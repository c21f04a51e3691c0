import VisaEligibility.Check.Call
import VisaEligibility.Program.Retry
import VisaEligibility.Retrieval.Query
/-!
Retrieving context: the facts become a query, the query a vector, and the chunks found near the
vector are ranked. Embedding and search are each repeated under a limit of their own.
-/
set_option autoImplicit false

namespace VisaEligibility.Retrieval

abbrev Attempted (α : Type) := Attempt Call.interface Failure α

/-- The policy of a remote call, without which it is not made. -/
def policyOf (setting : String) (policy : Option CallPolicy) : Attempted CallPolicy :=
  ExceptT.mk (return match policy with
    | some p => .ok p
    | none => .error (.noPolicy setting))

def remote {α : Type} (policy : CallPolicy) (call : Option Number → Engine (Except Raised α)) :
    Engine (Except Raised α) :=
  policy.retry.rule.run Engine.pause (call policy.timeoutMs)

def staged {α : Type} (stage : AiStage) (activity : String)
    (call : Engine (Except Raised α)) : Attempted α := ExceptT.mk do
  match ← call with
  | .ok a => return .ok a
  | .error e => return .error (.ofActivity stage activity e)

def checkVector (dimensions : Option Number) (v : List Number) : Except Failure (List Number) :=
  if v.isEmpty then .error (.ofStage .embedding "Embedding provider returned an empty vector" none)
  else if !dimensions.any (Number.same v.length) then
    .error (.ofStage .embedding ("Embedding has " ++ toString v.length ++ " dimensions, expected " ++
      (Value.ofOption Value.number dimensions).display) none)
  else if !v.all Number.isFinite then
    .error (.ofStage .embedding "Embedding contains non-finite values" none)
  else .ok v

def embed (s : RetrievalSettings) (text : String) : Attempted (List Number) := do
  let policy ← policyOf "embedding" s.embedding
  let v ← staged .embedding "Embedding generation" (remote policy (Engine.embedding text))
  ExceptT.mk (return checkVector s.embeddingDimensions v)

def search (s : RetrievalSettings) (vector : List Number) (filters : ChunkFilters)
    (topK minSimilarity : Number) : Attempted (List Chunk) := do
  let policy ← policyOf "search" s.search
  let chunks ← staged .retrieval "Vector search"
    (remote policy (Engine.search vector filters topK minSimilarity))
  return Chunk.rank chunks topK minSimilarity

structure Context where
  query : String
  chunks : List Chunk
deriving Repr

def retrieve (s : RetrievalSettings) (facts : Facts) (filters : ChunkFilters) :
    Attempted Context := do
  let q ← ExceptT.mk (return query facts filters.visaCode)
  let v ← embed s q
  let chunks ← search s v filters s.topK s.minSimilarity
  return ⟨q, chunks⟩

end VisaEligibility.Retrieval
