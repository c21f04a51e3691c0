import VisaEligibility.Coercion
import VisaEligibility.Rule.Version
/-!
Stored rule versions. A malformed document is no rule version; expressions are kept as they are.
-/
set_option autoImplicit false

namespace VisaEligibility

namespace Requirement

/-- Whether a requirement is mandatory; one that does not say so is not. -/
def mandatory? : Value → Option Bool
  | .undefined => some false
  | .bool b => some b
  | _ => none

def ofDocument? (v : Value) : Option Requirement := do
  let code ← (v.field "code").filledText?
  let mandatory ← mandatory? (v.field "mandatory")
  let description ← (v.field "description").optional? Value.text?
  return { code, expression := v.field "expression", mandatory,
           description := description.filter fun s => !s.isEmpty }

end Requirement

namespace RuleVersion

def ofDocument? (v : Value) : Option RuleVersion := do
  let id ← (v.field "rule_version_id").filledText?
  let visaTypeId ← (v.field "visa_type_id").filledText?
  let visaCode ← (v.field "visa_code").filledText?
  let effectiveFrom ← (v.field "effective_from").validDate?
  let effectiveTo ← (v.field "effective_to").optional? Value.validDate?
  let published ← (v.field "published").bool?
  let createdAt ← (v.field "created_at").validDate?
  let requirements ← (← (v.field "requirements").list?).mapM Requirement.ofDocument?
  return { id, visaTypeId, visaCode, effectiveFrom, effectiveTo, published, createdAt,
           requirements }

end RuleVersion

end VisaEligibility
