import VisaEligibility.Outcome
import VisaEligibility.Sorting
import VisaEligibility.Value
import VisaEligibility.Text.Units
/-!
Published versions of the rules for a visa type, and which of them is in force on a date: of the
active versions the one created last, of those created together the one with the greatest id.
-/
set_option autoImplicit false

namespace VisaEligibility

/-- One condition of a rule version. Its expression is read when it is evaluated. -/
structure Requirement where
  code : String
  expression : Value
  mandatory : Bool
  description : Option String := none
deriving Repr, Inhabited

namespace Requirement

def toValue (r : Requirement) : Value :=
  .record [("code", .text r.code), ("expression", r.expression), ("mandatory", .bool r.mandatory),
    ("description", Value.ofOption Value.text r.description)]

def ofValue (v : Value) : Requirement :=
  { code := v.textAt "code"
    expression := v.field "expression"
    mandatory := v.flagAt "mandatory"
    description := (v.field "description").text? }

end Requirement

structure RuleVersion where
  id : String
  visaTypeId : String
  visaCode : String
  effectiveFrom : Instant
  effectiveTo : Option Instant
  published : Bool
  createdAt : Instant
  requirements : List Requirement
deriving Repr, Inhabited

namespace RuleVersion

def toValue (v : RuleVersion) : Value :=
  .record [("id", .text v.id), ("visaTypeId", .text v.visaTypeId), ("visaCode", .text v.visaCode),
    ("effectiveFrom", .date v.effectiveFrom),
    ("effectiveTo", (v.effectiveTo.map Value.date).getD .null), ("published", .bool v.published),
    ("createdAt", .date v.createdAt), ("requirements", .list (v.requirements.map (·.toValue)))]

def ofValue (v : Value) : RuleVersion :=
  { id := v.textAt "id"
    visaTypeId := v.textAt "visaTypeId"
    visaCode := v.textAt "visaCode"
    effectiveFrom := v.dateAt "effectiveFrom"
    effectiveTo := (v.field "effectiveTo").date?
    published := v.flagAt "published"
    createdAt := v.dateAt "createdAt"
    requirements := (v.itemsAt "requirements").map .ofValue }

def isInForce (v : RuleVersion) (asOf : Instant) : Bool :=
  v.published && !(asOf.lt v.effectiveFrom) &&
    match v.effectiveTo with
    | none => true
    | some t => asOf.le t

/-- Whether a version comes before another: the newer first, then the one with the greater id. An
invalid time of creation is level with all others. -/
def before (a b : RuleVersion) : Bool :=
  match b.createdAt.order? a.createdAt with
  | some .lt => true
  | some .eq => Text.unitOrder b.id a.id == .lt
  | _ => false

def select (candidates : List RuleVersion) (asOf : Instant) : Option RuleVersion :=
  (Sorting.sort before (candidates.filter (·.isInForce asOf))).head?

end RuleVersion
end VisaEligibility
