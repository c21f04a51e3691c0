import VisaEligibility.Failure.Basic
import VisaEligibility.Outcome
import VisaEligibility.Response.Marker
/-!
The verdict of a model answer. The last outcome marker and the last confidence marker decide, each
on its own; nothing is inferred from free text.
-/
set_option autoImplicit false

namespace VisaEligibility

/-- Two labels that name no outcome and yet count as an answer. -/
inductive ReservedLabel where
  | ofObjects
  | ofPrototype
deriving DecidableEq, Repr

namespace ReservedLabel

def label : ReservedLabel → String
  | ofObjects => "constructor"
  | ofPrototype => "__proto__"

def all : List ReservedLabel := [ofObjects, ofPrototype]

def display : ReservedLabel → String
  | ofObjects => "function Object() \x7b [native code] \x7d"
  | ofPrototype => "[object Object]"

def toValue : ReservedLabel → Value
  | ofObjects => .undefined
  | ofPrototype => .record []

end ReservedLabel

inductive Conclusion where
  | outcome (o : Outcome)
  | reserved (l : ReservedLabel)
deriving DecidableEq, Repr

namespace Conclusion

instance : Coe Outcome Conclusion := ⟨outcome⟩

instance : Inhabited Conclusion := ⟨outcome default⟩

def display : Conclusion → String
  | outcome o => o.name
  | reserved l => l.display

def toValue : Conclusion → Value
  | outcome o => .text o.name
  | reserved l => l.toValue

def ofValue : Value → Conclusion
  | .text s => (Outcome.ofName? s).elim (reserved .ofObjects) outcome
  | .record _ => reserved .ofPrototype
  | _ => reserved .ofObjects

end Conclusion

/-- The verdict of a model: a conclusion and a confidence, each unless it is unknown. -/
structure AiVerdict where
  conclusion : Option Conclusion
  confidence : Option Number
deriving DecidableEq, Repr

namespace Response

def synonyms : List (String × Outcome) :=
  [("eligible", .eligible), ("likely", .eligible), ("not_eligible", .notEligible),
    ("not eligible", .notEligible), ("ineligible", .notEligible), ("unlikely", .notEligible),
    ("requires_review", .requiresReview), ("requires review", .requiresReview),
    ("possible", .requiresReview)]

def named? (label : String) : Option Conclusion :=
  ((Entries.get? synonyms label).map .outcome).orElse fun _ =>
    (ReservedLabel.all.find? fun l => l.label == label).map .reserved

def normalLabel (label : List Char) : List Char :=
  Text.collapse ((Text.trimChars label).map Char.toLower)

def underscored (label : List Char) : List Char :=
  label.map fun c => if c = ' ' then '_' else c

/-- What a label names, as it stands or with underscores for spaces. -/
def conclusionOf (label : List Char) : Option Conclusion :=
  let l := normalLabel label
  if l.isEmpty then none
  else (named? (String.ofList l)).orElse fun _ => named? (String.ofList (underscored l))

def conclusion (text : String) : Option Conclusion :=
  (last? outcomeMarker? text).bind conclusionOf

def Share.value (s : Share) : Number :=
  let x := Number.ofStart (String.ofList s.numeral)
  if s.percent then x.div 100 else x

def inUnitInterval (x : Number) : Bool := Number.le 0 x && x.le 1

/-- The confidence of the last confidence marker, when it lies between 0 and 1. -/
def confidence (text : String) : Option Number :=
  ((last? confidenceMarker? text).map Share.value).filter inUnitInterval

def verdict (text : String) : AiVerdict := ⟨conclusion text, confidence text⟩

end Response

namespace AiVerdict

def noOutcome : Failure :=
  .parse "outcome" "Model response has no recognizable OUTCOME marker"

def noConfidence : Failure :=
  .parse "confidence" "Model response has no CONFIDENCE marker within [0, 1]"

def warnings (v : AiVerdict) : List Failure :=
  (if v.conclusion.isNone then [noOutcome] else []) ++
    if v.confidence.isNone then [noConfidence] else []

def unknownText : String := "unknown"

def conclusionValue (v : AiVerdict) : Value :=
  (v.conclusion.map Conclusion.toValue).getD (.text unknownText)

def confidenceValue (v : AiVerdict) : Value :=
  (v.confidence.map Value.number).getD (.text unknownText)

def conclusionText (v : AiVerdict) : String := (v.conclusion.map Conclusion.display).getD unknownText

end AiVerdict
end VisaEligibility
