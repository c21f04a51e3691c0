import VisaEligibility.Value
/-!
Collections of documents and what is asked of them: conditions on fields, the order of the answer
and the indexes that serve it.
-/
set_option autoImplicit false

namespace VisaEligibility.Documents

inductive Collection where
  | caseFacts
  | ruleVersions
  | results
  | reasoningLogs
  | citations
  | reviews
  | cases
deriving DecidableEq, Repr

namespace Collection

def name : Collection → String
  | caseFacts => "case_facts"
  | ruleVersions => "visa_rule_versions"
  | results => "eligibility_results"
  | reasoningLogs => "ai_reasoning_logs"
  | citations => "ai_citations"
  | reviews => "human_reviews"
  | cases => "cases"

end Collection

/-- A condition on a document. A field that is equal to `null` may also be absent. -/
inductive Condition where
  | equals (field : String) (value : Value)
  | atMost (field : String) (time : Instant)
  | atLeast (field : String) (time : Instant)
  | either (a b : Condition)
deriving Repr

namespace Condition

def toField : Condition → String × Value
  | equals field v => (field, v)
  | atMost field t => (field, .record [("$lte", .date t)])
  | atLeast field t => (field, .record [("$gte", .date t)])
  | either a b => ("$or", .list [.record [a.toField], .record [b.toField]])

def filter (cs : List Condition) : Value := .record (cs.map toField)

end Condition

inductive Direction where
  | ascending
  | descending
deriving DecidableEq, Repr

abbrev SortKeys := List (String × Direction)

namespace SortKeys

def toValue (ks : SortKeys) : Value :=
  .list (ks.map fun k => .list [.text k.1, .number (match k.2 with
    | .ascending => 1
    | .descending => Number.ofInt (-1))])

end SortKeys

structure Index where
  keys : SortKeys
  unique : Bool := false
deriving DecidableEq, Repr

namespace Collection

def indexes : Collection → List Index
  | caseFacts => [{ keys := [("case_id", .ascending), ("fact_key", .ascending)] }]
  | ruleVersions =>
    [{ keys := [("visa_type_id", .ascending), ("published", .ascending),
        ("effective_from", .descending)] }]
  | results =>
    [{ keys := [("result_id", .ascending)], unique := true },
      { keys := [("case_id", .ascending), ("created_at", .descending)] }]
  | reasoningLogs =>
    [{ keys := [("log_id", .ascending)], unique := true },
      { keys := [("case_id", .ascending), ("created_at", .descending)] }]
  | citations => [{ keys := [("reasoning_log_id", .ascending)] }]
  | reviews => [{ keys := [("case_id", .ascending), ("status", .ascending)] }]
  | cases => []

def indexed : List Collection :=
  [caseFacts, ruleVersions, results, reasoningLogs, citations, reviews]

end Collection
end VisaEligibility.Documents
