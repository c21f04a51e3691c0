import VisaEligibility.Sorting
import VisaEligibility.Text.Units
import VisaEligibility.Value
/-!
Chunks of regulatory documents and their ranking: by similarity, then from the newest document
version, then by the ids of version and chunk.
-/
set_option autoImplicit false

namespace VisaEligibility

structure Chunk where
  id : String
  documentVersionId : String
  documentCreatedAt : Instant
  text : String
  similarity : Number
  metadata : List (String × Value)
deriving Repr, Inhabited

/-- What chunks a search is limited to; an empty text limits nothing. -/
structure ChunkFilters where
  visaCode : Option String := none
  jurisdiction : Option String := none
deriving DecidableEq, Repr, Inhabited

namespace ChunkFilters

def ofValue (v : Value) : ChunkFilters :=
  ⟨(v.field "visaCode").text?, (v.field "jurisdiction").text?⟩

/-- The texts that are not empty, by the metadata key they limit. -/
def conditions (f : ChunkFilters) : List (String × String) :=
  [("visaCode", f.visaCode), ("jurisdiction", f.jurisdiction)].filterMap fun c =>
    match c.2 with
    | some s => if s.isEmpty then none else some (c.1, s)
    | none => none

end ChunkFilters

namespace Chunk

def toValue (c : Chunk) : Value :=
  .record [("chunkId", .text c.id), ("documentVersionId", .text c.documentVersionId),
    ("documentVersionCreatedAt", .date c.documentCreatedAt), ("text", .text c.text),
    ("similarity", .number c.similarity), ("metadata", .record c.metadata)]

def ofValue (v : Value) : Chunk :=
  { id := v.textAt "chunkId"
    documentVersionId := v.textAt "documentVersionId"
    documentCreatedAt := v.dateAt "documentVersionCreatedAt"
    text := v.textAt "text"
    similarity := v.numberAt "similarity"
    metadata := v.fieldsAt "metadata" }

def meets (c : Chunk) (f : ChunkFilters) : Bool :=
  f.conditions.all fun condition =>
    match Entries.get? c.metadata condition.1 with
    | some (.text s) => s == condition.2
    | _ => false

/-- The order of two numbers; those that do not compare are taken as equal. -/
def numberOrder (a b : Number) : Ordering := (a.order? b).getD .eq

/-- The better chunk first. Chunks whose dates do not compare are on one level. -/
def order (a b : Chunk) : Ordering :=
  (numberOrder b.similarity a.similarity).then <|
    match b.documentCreatedAt.order? a.documentCreatedAt with
    | some o => (o.then (Text.unitOrder a.documentVersionId b.documentVersionId)).then
        (Text.unitOrder a.id b.id)
    | none => .eq

def before (a b : Chunk) : Bool := order a b == .lt

/-- The first so many elements: a fraction is dropped, a negative count leaves off the last ones. -/
def first {α : Type} (count : Number) (l : List α) : List α :=
  match count with
  | .nan => []
  | .infinite true => []
  | .infinite false => l
  | count =>
    match count.truncate? with
    | some (.negSucc n) => l.take (l.length - (n + 1))
    | some (.ofNat n) => l.take n
    | none => []

def rank (chunks : List Chunk) (topK minSimilarity : Number) : List Chunk :=
  first topK (Sorting.sort before (chunks.filter fun c => minSimilarity.le c.similarity))

end Chunk
end VisaEligibility
