import VisaEligibility.Coercion
import VisaEligibility.Failure.Basic
import VisaEligibility.Retrieval.Chunk
/-!
Rows that a search returns, read as chunks. A row with a column of the wrong kind is no chunk; the
columns for visa code and jurisdiction go before the metadata of the same name. Dates and scores are
converted, and a value that cannot be converted at all fails the reading.
-/
set_option autoImplicit false

namespace VisaEligibility.Chunk

/-- A column that may be missing and otherwise holds a text. -/
def textColumn? (v : Value) : Option (Option String) := v.optional? Value.text?

/-- The key that metadata never keep. -/
def droppedKey : String := "__proto__"

def metadataColumn? (v : Value) : Option (List (String × Value)) :=
  (v.optional? Value.fields?).map fun fs => (fs.getD []).filter fun f => f.1 != droppedKey

def similarityColumn? (v : Value) : Option Number :=
  let x := v.asNumber
  if x.isNaN then none else some x

def withColumn (metadata : List (String × Value)) (key : String) (column : Option String) :
    List (String × Value) :=
  match column with
  | some s => if s.isEmpty then metadata else Entries.put metadata key (.text s)
  | none => metadata

def ofRow? (row : Value) (dates : DateReader) : Option Chunk := do
  let id ← (row.field "chunk_id").text?
  let documentVersionId ← (row.field "document_version_id").text?
  let created := (row.field "document_version_created_at").asInstant dates
  let documentCreatedAt ← (Value.date created).validDate?
  let text ← (row.field "text").text?
  let similarity ← similarityColumn? (row.field "similarity")
  let visaCode ← textColumn? (row.field "visa_code")
  let jurisdiction ← textColumn? (row.field "jurisdiction")
  let metadata ← metadataColumn? (row.field "metadata")
  return { id, documentVersionId, documentCreatedAt, text, similarity,
           metadata := withColumn (withColumn metadata "visaCode" visaCode) "jurisdiction"
             jurisdiction }

/-- Whether the columns that are converted can be. -/
def isConvertible (row : Value) : Bool :=
  (row.field "document_version_created_at").hasText && (row.field "similarity").hasText

/-- The chunk of a row, if the row is well formed. -/
def ofRow (row : Value) (dates : DateReader := .universal) : Except Raised (Option Chunk) :=
  if row.isNullish then .error (.failure (.noFields row "chunk_id"))
  else if isConvertible row then .ok (ofRow? row dates)
  else .error (.failure .noText)

def ofRows (dates : DateReader) : List Value → Except Raised (List Chunk)
  | [] => .ok []
  | row :: rows => do
    let c ← ofRow row dates
    let cs ← ofRows dates rows
    return c.toList ++ cs

end VisaEligibility.Chunk
