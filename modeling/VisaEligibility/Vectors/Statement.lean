import VisaEligibility.Configuration.Basic
import VisaEligibility.Json.Printer
import VisaEligibility.Retrieval.Chunk
/-!
The statement of a vector search. Values reach it as numbered parameters only; the name of the
schema is checked and quoted.
-/
set_option autoImplicit false

namespace VisaEligibility.Vectors

structure Statement where
  text : String
  params : Option (List Value)
deriving Repr

namespace Statement

def toValue (s : Statement) : Value :=
  .record [("text", .text s.text), ("params", Value.ofOption Value.list s.params)]

end Statement

def schemaName? (s : String) : Except Failure String :=
  if !s.isEmpty && s.toList.all Configuration.isSchemaChar then .ok s
  else .error (.general ("Invalid schema name: " ++ s ++
    ". Only alphanumeric characters and underscores are allowed."))

/-- A name in double quotes, those inside doubled. -/
def quoteName (s : String) : String :=
  String.ofList ('"' :: s.toList.flatMap (fun c => if c = '"' then ['"', '"'] else [c]) ++ ['"'])

def distance : String := "embedding <=> CAST($1::text AS vector)"

def columnOf (key : String) : String :=
  if key = "visaCode" then "visa_code" else key

def placeholder (n : Nat) : String := "$" ++ toString n

/-- The condition that a filter makes: equal to its parameter, or not set at all. -/
def condition (n : Nat) (key : String) : String :=
  "(" ++ columnOf key ++ " = " ++ placeholder n ++ " OR " ++ columnOf key ++ " IS NULL)"

def conditions (n : Nat) : List (String × String) → List String
  | [] => []
  | f :: fs => condition n f.1 :: conditions (n + 1) fs

def searchLines (schemaName : String) (wheres : List String) (params : Nat) : List String :=
  ["",
    "        SELECT",
    "          chunk_id,",
    "          document_version_id,",
    "          document_version_created_at,",
    "          text,",
    "          visa_code,",
    "          jurisdiction,",
    "          metadata,",
    "          1 - (" ++ distance ++ ") AS similarity",
    "        FROM " ++ quoteName schemaName ++ ".document_chunks",
    "        WHERE " ++ String.intercalate "\n          AND " wheres,
    "        ORDER BY " ++ distance,
    "        LIMIT " ++ placeholder params ++ ";",
    "      "]

def searchStatement (schemaName : String) (vector : List Number) (filters : ChunkFilters)
    (topK minSimilarity : Number) : Statement :=
  let fs := filters.conditions
  let params := [.text (Json.print (.list (vector.map .number))), .number minSimilarity] ++
    fs.map (fun f => .text f.2) ++ [.number topK]
  let wheres := ("1 - (" ++ distance ++ ") >= $2") :: conditions 3 fs
  ⟨String.intercalate "\n" (searchLines schemaName wheres params.length), some params⟩

end VisaEligibility.Vectors
