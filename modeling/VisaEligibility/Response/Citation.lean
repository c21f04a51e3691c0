import VisaEligibility.Distinct
import VisaEligibility.Number.Reading
import VisaEligibility.Retrieval.Chunk
/-!
Citations in a model answer: a number in brackets stands for the context chunk at that place,
counted from one. A chunk is cited once however often it is named.
-/
set_option autoImplicit false

namespace VisaEligibility

/-- A chunk cited by an answer, as far as it is known before the answer is stored. -/
structure Excerpt where
  documentVersionId : String
  text : String
  relevance : Number
deriving DecidableEq, Repr, Inhabited

namespace Response

/-- Where the scan for bracketed numbers stands: outside, or inside brackets after some digits. -/
inductive Bracket where
  | outside
  | inside (digits : List Char)
deriving DecidableEq, Repr

def bracketed : Bracket → List Char → List Nat
  | _, [] => []
  | .outside, c :: cs => bracketed (if c = '[' then .inside [] else .outside) cs
  | .inside ds, c :: cs =>
    if c.isDigit then bracketed (.inside (ds ++ [c])) cs
    else if c = ']' && !ds.isEmpty then Number.ofDigits ds :: bracketed .outside cs
    else bracketed (if c = '[' then .inside [] else .outside) cs

def citedPlaces (text : String) (count : Nat) : List Nat :=
  distinct ((bracketed .outside text.toList).filter fun n => 1 ≤ n && n ≤ count)

def excerptLength : Nat := 500

def excerptOf (c : Chunk) : Excerpt :=
  ⟨c.documentVersionId, String.ofList (c.text.toList.take excerptLength), c.similarity⟩

def excerpts (text : String) (chunks : List Chunk) : List Excerpt :=
  (citedPlaces text chunks.length).filterMap fun n => chunks[n - 1]?.map excerptOf

end Response
end VisaEligibility
