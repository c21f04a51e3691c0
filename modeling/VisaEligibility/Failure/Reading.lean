import VisaEligibility.Failure.Basic
/-!
Failures read from descriptions: the kind by name, the arguments it is made from, and fields put on
top. A description without a kind is a general failure, or a bare value to be raised.
-/
set_option autoImplicit false

namespace VisaEligibility

namespace Failure

def unavailableMessage : String := "Service temporarily unavailable"

def ofArguments (kind : FailureKind) (message : String) (args : List Value) :
    Except Failure Failure :=
  let arg := fun i => args.getD i .undefined
  let text := fun i (fallback : String) => if (arg i).isNullish then fallback else ((arg i).text?).getD ""
  let number := fun i (fallback : Number) => (((arg i).number?)).getD fallback
  let fields := fun i => (arg i).fields?
  let cause := fun i =>
    if i < args.length then (Raised.value (arg i)).text.map (causeText (.value (arg i)))
    else .ok none
  let first := text 0 ""
  match kind with
  | .timeout => .ok (timeout first (arg 1).number?)
  | .application =>
    .ok (application .application first (text 1 "") (number 2 500) (((arg 3).bool?).getD true)
      (fields 4))
  | .notFound => .ok (notFound .notFound first (arg 1).text? ((fields 2).getD []))
  | .badRequest => .ok (badRequest first (fields 1))
  | .serviceUnavailable => .ok (serviceUnavailable (text 0 unavailableMessage) (fields 1))
  | .externalService => .ok (externalService first (text 1 "") ((fields 2).getD []))
  | .noRuleVersion =>
    let f := noRuleVersion first (((arg 1).date?).getD .invalid)
    if f.kind = .range then .error f else .ok f
  | .evaluation => .ok (evaluation first (fields 1))
  | .aiReasoning => (cause 3).map (aiReasoning .aiReasoning first (text 1 "") (text 2 ""))
  | .embedding => (cause 1).map (ofStage .embedding first)
  | .retrieval => (cause 1).map (ofStage .retrieval first)
  | .model => (cause 1).map (ofStage .model first)
  | .parse => .ok (parse first (text 1 ""))
  | .persistence =>
    let f := persistence first (.value (arg 1))
    if f.kind = .noText then .error f else .ok f
  | k => .ok ⟨k, message, []⟩

end Failure

namespace Raised

def read (v : Value) : Except Failure Raised :=
  let more := v.fieldsAt "props"
  let message := v.textAt "message"
  match v.field? "name", v.fields? with
  | none, some fs =>
    if Entries.has fs "value" then .ok (.value (v.field "value"))
    else .ok (.failure ⟨.general, message, more⟩)
  | some n, _ =>
    let kind := (FailureKind.ofName? ((n.text?).getD "")).getD .general
    (Failure.ofArguments kind message (v.itemsAt "args")).map fun f =>
      .failure { f with fields := Entries.merge f.fields more }
  | none, none => .ok (.value v)

/-- What a description raises; one that cannot be made stands for its failure. -/
def ofValue (v : Value) : Raised :=
  match read v with
  | .ok r => r
  | .error f => .failure f

def fault? (v : Value) : Option Raised :=
  match ofValue v with
  | .value .null => none
  | e => some e

end Raised
end VisaEligibility
