import VisaEligibility.Check.Record
import VisaEligibility.Fact.Basic
import VisaEligibility.Metrics.Counter
import VisaEligibility.Program.Basic
import VisaEligibility.Reasoning.Prompt
/-!
The calls of the engine: all that a check asks of the world around it.
-/
set_option autoImplicit false

namespace VisaEligibility

structure ModelOptions where
  temperature : Option Number
  maxTokens : Option Number
deriving DecidableEq, Repr

structure ModelAnswer where
  text : String
  model : String
  usage : Option TokenUsage
deriving DecidableEq, Repr

def ModelAnswer.toFields (a : ModelAnswer) : List (String × Value) :=
  [("content", .text a.text), ("model", .text a.model),
    ("usage", Value.ofOption TokenUsage.toValue a.usage)]

/-- A call on the world. Calls of remote services carry the time limit they are made under, which
may not be set. -/
inductive Call where
  | now
  | newId
  | facts (caseId : String)
  | ruleVersion (visaTypeId : String) (asOf : Instant)
  | embedding (text : String) (limit : Option Number)
  | search (vector : List Number) (filters : ChunkFilters) (topK minSimilarity : Number)
    (limit : Option Number)
  | completion (messages : List Message) (options : ModelOptions) (limit : Option Number)
  | pause (ms : Number)
  | count (counter : Counter)
  | saveLog (log : ReasoningLog)
  | saveCitations (citations : List Citation)
  | saveResult (result : EligibilityResult)
  | requestReview (caseId reason : String)
  | markEvaluated (caseId : String)

namespace Call

def Reply : Call → Type
  | now => Instant
  | newId => String
  | facts _ => Except Raised Facts
  | ruleVersion _ _ => Except Raised RuleVersion
  | embedding _ _ => Except Raised (List Number)
  | search _ _ _ _ _ => Except Raised (List Chunk)
  | completion _ _ _ => Except Raised ModelAnswer
  | pause _ => Unit
  | count _ => Unit
  | saveLog _ => Except Raised Unit
  | saveCitations _ => Except Raised Unit
  | saveResult _ => Except Raised Unit
  | requestReview _ _ => Except Raised Unit
  | markEvaluated _ => Except Raised Unit

abbrev interface : Interface := ⟨Call, Reply⟩

end Call

abbrev Engine (α : Type) := Program Call.interface α

namespace Engine

def now : Engine Instant := Program.perform (I := Call.interface) .now

def newId : Engine String := Program.perform (I := Call.interface) .newId

def facts (caseId : String) : Engine (Except Raised Facts) :=
  Program.perform (I := Call.interface) (.facts caseId)

def ruleVersion (visaTypeId : String) (asOf : Instant) : Engine (Except Raised RuleVersion) :=
  Program.perform (I := Call.interface) (.ruleVersion visaTypeId asOf)

def embedding (text : String) (limit : Option Number) : Engine (Except Raised (List Number)) :=
  Program.perform (I := Call.interface) (.embedding text limit)

def search (vector : List Number) (filters : ChunkFilters) (topK minSimilarity : Number)
    (limit : Option Number) : Engine (Except Raised (List Chunk)) :=
  Program.perform (I := Call.interface) (.search vector filters topK minSimilarity limit)

def completion (messages : List Message) (options : ModelOptions) (limit : Option Number) :
    Engine (Except Raised ModelAnswer) :=
  Program.perform (I := Call.interface) (.completion messages options limit)

def pause (ms : Number) : Engine Unit := Program.perform (I := Call.interface) (.pause ms)

def count (counter : Counter) : Engine Unit :=
  Program.perform (I := Call.interface) (.count counter)

def saveLog (log : ReasoningLog) : Engine (Except Raised Unit) :=
  Program.perform (I := Call.interface) (.saveLog log)

def saveCitations (citations : List Citation) : Engine (Except Raised Unit) :=
  Program.perform (I := Call.interface) (.saveCitations citations)

def saveResult (result : EligibilityResult) : Engine (Except Raised Unit) :=
  Program.perform (I := Call.interface) (.saveResult result)

def requestReview (caseId reason : String) : Engine (Except Raised Unit) :=
  Program.perform (I := Call.interface) (.requestReview caseId reason)

def markEvaluated (caseId : String) : Engine (Except Raised Unit) :=
  Program.perform (I := Call.interface) (.markEvaluated caseId)

end Engine
end VisaEligibility
