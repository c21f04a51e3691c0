import VisaEligibility.Bench.Basic
import VisaEligibility.Failure.Reading
/-!
Scripts of a bench read from values.
-/
set_option autoImplicit false

namespace VisaEligibility.Bench

def answerOfValue {α : Type} (read : Value → α) (v : Value) : Option (Except Raised α) :=
  match v with
  | .null => none
  | .record [("error", e)] => some (.error (.ofValue e))
  | v => some (.ok (read v))

def ScriptChange.ofValue {α : Type} (read : Value → α) (v : Value) : ScriptChange α :=
  { clear := v.flagAt "clear"
    answers := (v.itemsAt "queue").map (answerOfValue read)
    fault := (v.field? "error").map Raised.fault?
    fallback := (v.field? "default").map fun d => .ok (read d)
    delays := (v.itemsAt "delays").map Value.number? }

def searchChange (v : Value) : ScriptChange Unit :=
  { ScriptChange.ofValue (fun _ => ()) v with
    answers := (v.itemsAt "queue").map fun e => some (.error (.ofValue e)) }

def vectorOfValue (v : Value) : List Number :=
  ((v.list?).getD []).map fun x => (x.number?).getD .nan

def textOfValue (v : Value) : String := (v.text?).getD ""

def ofValue (x : Value) : Bench :=
  let b := Bench.start (.ofMillis 0) (x.natAt "dims" 4) (x.textAt "model" defaultModelName)
  { b with
    chunks := ((x.field "search").itemsAt "chunks").map .ofValue
    embedding := b.embedding.change none b.embedding.general.fallback
      (ScriptChange.ofValue vectorOfValue (x.field "embedding"))
    search := b.search.change (searchChange (x.field "search"))
    model := b.model.change none b.model.general.fallback
      (ScriptChange.ofValue textOfValue (x.field "llm")) }

def Fault.ofValue? (v : Value) : Option Fault :=
  (Store.ofName? (v.textAt "store")).map fun s =>
    ⟨s, (v.field "operation").text?, .ofValue (v.field "error")⟩

end VisaEligibility.Bench
