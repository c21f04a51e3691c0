import VisaEligibility.Check.Batch
import VisaEligibility.Distinct
import VisaEligibility.Text.Units
import VisaEligibility.Validation.Issue
/-!
Checking requests: the id of a case, and the body that asks for checks of a case. White space around
ids is dropped and each visa type is kept once, where it was first named.
-/
set_option autoImplicit false

namespace VisaEligibility

structure CheckBody where
  visaTypeIds : List String
  evaluationDate : Option Instant
  enableAi : Option Bool
  jurisdiction : Option String
deriving DecidableEq, Repr

namespace CheckBody

def options (b : CheckBody) : BatchOptions := ⟨b.evaluationDate, b.enableAi, b.jurisdiction⟩

def toValue (b : CheckBody) : Value :=
  .record [("visaTypeIds", .texts b.visaTypeIds),
    ("evaluationDate", Value.ofOption Value.date b.evaluationDate),
    ("enableAiReasoning", Value.ofOption Value.bool b.enableAi),
    ("jurisdiction", Value.ofOption Value.text b.jurisdiction)]

end CheckBody

namespace Validation

def isIdentifierChar (c : Char) : Bool :=
  c.isAlphanum || c = '_' || c = '.' || c = ':' || c = '-'

def maxIdentifierLength : Nat := 128

def maxJurisdictionLength : Nat := 64

def maxVisaTypes : Nat := 10

/-- The messages whose condition holds, as faults at the place itself. -/
def faults (conditions : List (Bool × String)) : List Issue :=
  conditions.filterMap fun c => if c.1 then some ⟨[], c.2⟩ else none

def identifierFaults (s : String) : List Issue :=
  faults [(s.isEmpty, "Identifier cannot be empty"),
    (maxIdentifierLength < Text.unitLength s, "Identifier is too long"),
    (s.isEmpty || !s.toList.all isIdentifierChar, "Identifier contains invalid characters")]

def identifier (v : Value) : Checked String :=
  match v with
  | .text s => .ofIssues (Text.trim s) (identifierFaults (Text.trim s))
  | v => .fault (wrongKind "string" v)

def jurisdictionFaults (s : String) : List Issue :=
  faults [(s.isEmpty, "String must contain at least 1 character(s)"),
    (maxJurisdictionLength < Text.unitLength s, "String must contain at most 64 character(s)")]

def jurisdiction (v : Value) : Checked String :=
  match v with
  | .text s => .ofIssues (Text.trim s) (jurisdictionFaults (Text.trim s))
  | v => .fault (wrongKind "string" v)

/-- Whether a text is a run of two digits and a colon and two digits, after a sign. -/
def isOffset (cs : List Char) : Bool :=
  match cs with
  | [s, a, b, ':', c, d] => (s = '+' || s = '-') && [a, b, c, d].all Char.isDigit
  | _ => false

/-- Whether what follows a calendar day is nothing, or a time with an optional offset. -/
def isTimePart (cs : List Char) : Bool :=
  match cs with
  | [] => true
  | 'T' :: rest =>
    match rest.span fun c => c.isDigit || c = ':' || c = '.' with
    | ([], _) => false
    | (_, zone) => zone.isEmpty || zone = ['Z'] || isOffset zone
  | _ => false

/-- Whether a text is a calendar day of four, two and two digits with an optional time. -/
def isDateText (s : String) : Bool :=
  match s.toList with
  | y₁ :: y₂ :: y₃ :: y₄ :: '-' :: m₁ :: m₂ :: '-' :: d₁ :: d₂ :: rest =>
    [y₁, y₂, y₃, y₄, m₁, m₂, d₁, d₂].all Char.isDigit && isTimePart rest
  | _ => false

def evaluationDate (v : Value) (zone : Zone) : Checked Instant :=
  match v with
  | .text s =>
    if !isDateText s then .fault "evaluationDate must be an ISO date"
    else
      let d := Instant.ofText s zone
      if d.isValid then .ok d else .fault "evaluationDate is not a valid date"
  | v => .fault (wrongKind "string" v)

def boolean (v : Value) : Checked Bool :=
  match v with
  | .bool b => .ok b
  | v => .fault (wrongKind "boolean" v)

def countFaults (n : Nat) : List Issue :=
  faults [(n = 0, "At least one visa type is required"),
    (maxVisaTypes < n, "At most 10 visa types can be checked at once")]

def visaTypeIds (v : Value) : Checked (List String) :=
  match v with
  | .list vs =>
    ((Checked.ofIssues () (countFaults vs.length)).and (Checked.items identifier 0 vs)).map
      fun p => distinct p.2
  | v => .fault (wrongKind "array" v)

def bodyKeys : List String := ["visaTypeIds", "evaluationDate", "enableAiReasoning", "jurisdiction"]

def unknownKeys (fields : List (String × Value)) : List Issue :=
  match (Entries.keys fields).filter fun k => !bodyKeys.contains k with
  | [] => []
  | ks => [⟨[], "Unrecognized key(s) in object: " ++
      String.intercalate ", " (ks.map fun k => "'" ++ k ++ "'")⟩]

def checkBody (v : Value) : Checked CheckBody :=
  match v with
  | .record fields =>
    let part := fun {α : Type} (key : String) (check : Value → Checked α) =>
      (check (v.field key)).under key
    ((part "visaTypeIds" visaTypeIds).and <|
      (part "evaluationDate" (Checked.optional (evaluationDate · .universal))).and <|
      (part "enableAiReasoning" (Checked.optional boolean)).and <|
      (part "jurisdiction" (Checked.optional jurisdiction)).and <|
      Checked.ofIssues () (unknownKeys fields)).map fun (ids, date, ai, place, _) =>
        ⟨ids, date, ai, place⟩
  | v => .fault (wrongKind "object" v)

def caseId (v : Value) : Checked String :=
  match v with
  | .record _ => (identifier (v.field "caseId")).under "caseId"
  | v => .fault (wrongKind "object" v)

end Validation
end VisaEligibility
