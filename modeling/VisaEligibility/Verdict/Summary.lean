import VisaEligibility.Text.Units
import VisaEligibility.Verdict.Combination
/-!
The summary stored with a result: the explanation of the model without its marker lines, or what
the rules found, and what a reader should know about the verdict.
-/
set_option autoImplicit false

namespace VisaEligibility.Summary

open Text (Units)

def splitLines : List Char → List (List Char)
  | [] => [[]]
  | c :: cs =>
    match splitLines cs with
    | [] => [[c]]
    | line :: rest => if c = '\n' then [] :: line :: rest else (c :: line) :: rest

def joinLines : List (List Char) → List Char
  | [] => []
  | [line] => line
  | line :: rest => line ++ ' ' :: joinLines rest

/-- The answer without the lines that announce a marker, on one line. -/
def body (response : String) : List Char :=
  Text.trimChars (Text.collapse
    (joinLines ((splitLines response.toList).filter fun line => !Response.announces line)))

def explanationLength : Nat := 500

def ellipsis : Units := .ofString "..."

/-- The first units of a text that leave room for an ellipsis within a number of units. Where there
is no such room, what is missing is taken off the end. -/
def cut (maxLength : Nat) (u : Units) : Units :=
  u.take (if 3 ≤ maxLength then maxLength - 3 else u.length - (3 - maxLength))

def shorten (maxLength : Nat) (cs : List Char) : Units :=
  let u := Units.ofList cs
  if maxLength < u.length then cut maxLength u ++ ellipsis else u

def explanation (response : String) (maxLength : Nat := explanationLength) : Units :=
  shorten maxLength (body response)

/-- A model answer: its conclusion, `none` when that is unknown, and its text. -/
structure Answer where
  conclusion : Option Conclusion
  text : String
deriving DecidableEq, Repr

def conclusionText (c : Option Conclusion) : String := (c.map Conclusion.display).getD AiVerdict.unknownText

def conflictText (rule : Outcome) (ai : Answer) : String :=
  "Rule engine evaluation indicates " ++ rule.name ++ " eligibility, while AI reasoning suggests " ++
    conclusionText ai.conclusion ++ ". Human review recommended for accurate assessment."

def ruleText (r : RuleFindings) : String :=
  "Rule engine evaluation: " ++ r.passed.text ++ " of " ++ r.total.text ++
    " requirements passed. Confidence: " ++ r.confidence.percent ++ "."

/-- The first part: the conflict, the explanation of the model, or what the rules found. -/
def opening (r : RuleFindings) (c : CombinedVerdict) (ai : Option Answer) : Units :=
  match ai with
  | some a =>
    if c.conflict then .ofString (conflictText r.outcome a)
    else if c.aiUsed then
      let e := explanation a.text
      if e.length = 0 then
        .ofString ("AI reasoning indicates " ++ conclusionText a.conclusion ++ ".")
      else e
    else .ofString (ruleText r)
  | none => .ofString (ruleText r)

/-- Why the model did not contribute, when it was asked. -/
def aiNote (c : CombinedVerdict) (ai : Option Answer) (failure : Option AiStage) : List String :=
  match failure, ai with
  | some f, _ =>
    ["AI reasoning unavailable (" ++ f.name ++ " failure); verdict based on rule evaluation only."]
  | none, some _ =>
    if c.aiUsed then []
    else ["AI reasoning gave no usable verdict; verdict based on rule evaluation only."]
  | none, none => []

def missingNote (missing : List String) : List String :=
  if missing.isEmpty then [] else ["Missing facts: " ++ String.intercalate ", " missing ++ "."]

def thresholdNote (c : CombinedVerdict) (t : Thresholds) : List String :=
  if c.confidence.lt t.escalation then
    ["Confidence is below threshold (" ++ c.confidence.percent ++ " < " ++ t.escalation.percent ++
      "). Human review recommended."]
  else []

def ofVerdict (r : RuleFindings) (c : CombinedVerdict) (ai : Option Answer)
    (failure : Option AiStage) (t : Thresholds := {}) : Units :=
  (aiNote c ai failure ++ missingNote r.missingFacts ++ thresholdNote c t).foldl
    (fun u note => u ++ .ofString (" " ++ note)) (opening r c ai)

end VisaEligibility.Summary
