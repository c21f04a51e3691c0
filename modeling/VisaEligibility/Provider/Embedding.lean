import VisaEligibility.Coercion
import VisaEligibility.Configuration.Basic
import VisaEligibility.Provider.Client
import VisaEligibility.Sorting
/-!
Vectors from an embedding service. The vectors of a batch come back in the order of its texts,
whatever the order in the reply.
-/
set_option autoImplicit false

namespace VisaEligibility.Provider

structure EmbeddingSettings where
  apiKey : Option String := none
  model : String := ({} : ModelSettings).embeddingModel
deriving DecidableEq, Repr

structure EmbeddingRequest where
  model : String
  input : List String
deriving DecidableEq, Repr

def EmbeddingRequest.toValue (r : EmbeddingRequest) : Value :=
  .record [("model", .text r.model), ("input", .texts r.input)]

/-- A vector in a reply with the place of its text. -/
structure PlacedVector where
  index : Number
  vector : Value
deriving Repr

namespace Embedding

/-- The request for the vectors of some texts, if the service can be called. No texts need none. -/
def prepare (hasClient : Bool) (s : EmbeddingSettings) (texts : List String) :
    Except Failure (Option EmbeddingRequest) :=
  if texts.isEmpty then .ok none
  else if isConfigured hasClient s.apiKey then .ok (some ⟨s.model, texts⟩)
  else .error (notConfigured "OpenAI embeddings are")

def placed (v : Value) : PlacedVector := ⟨(v.field "index").asNumber, v.field "embedding"⟩

/-- The vectors of a reply in the order of their texts; a place that is no number is level with all
others. -/
def read (reply : Value) : Except Failure (List Value) :=
  match reply.field "data" with
  | .list vs =>
    if vs.any (·.isNullish) then .error malformedReply
    else .ok ((Sorting.sort (fun a b => a.index.lt b.index) (vs.map placed)).map (·.vector))
  | _ => .error malformedReply

def noVector : Failure := .general "OpenAI returned no embedding"

def readOne (reply : Value) : Except Failure Value := do
  match (← read reply).head? with
  | some v => if v.truthy then .ok v else .error noVector
  | none => .error noVector

end Embedding
end VisaEligibility.Provider
