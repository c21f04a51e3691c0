import VisaEligibility.Retrieval.Chunk
import VisaEligibility.Rule.Version
/-!
Samples for a bench: a rule version for skilled workers with its requirements, a chunk about the
salary threshold, and the names of the services that a bench stands in for.
-/
set_option autoImplicit false

namespace VisaEligibility.Bench.Sample

def variableTree (name : String) : Value :=
  .record [("op", .text "var"), ("name", .text name)]

def flag (code : String) (mandatory : Bool := false) : Requirement :=
  { code, mandatory, expression := variableTree code }

def salary : Requirement :=
  { code := "salary_threshold"
    mandatory := true
    description := some "Salary meets the general threshold"
    expression := .record [("op", .text "compare"), ("operator", .text ">="),
      ("left", .record [("op", .text "var"), ("name", .text "salary"), ("type", .text "number")]),
      ("right", .record [("op", .text "literal"), ("value", .number 38700)])] }

def sponsor : Requirement :=
  { code := "licensed_sponsor", mandatory := true, expression := variableTree "sponsor" }

def degree : Requirement := flag "has_degree"

def ruleVersion : RuleVersion :=
  { id := "rv-skilled-2024"
    visaTypeId := "visa-skilled-worker"
    visaCode := "SKW"
    effectiveFrom := .ofText "2024-01-01T00:00:00Z"
    effectiveTo := none
    published := true
    createdAt := .ofText "2023-12-01T00:00:00Z"
    requirements := [salary, degree] }

def chunk : Chunk :=
  { id := "chunk-1"
    documentVersionId := "docv-1"
    documentCreatedAt := .ofText "2024-02-01T00:00:00Z"
    text := "Applicants must be paid at least the general salary threshold of 38,700 per year."
    similarity := .nearest (9 / 10)
    metadata := [("visaCode", .text "SKW"), ("jurisdiction", .text "UK")] }

def withFields (sample more : Value) : Value :=
  match sample, more with
  | .record fs, .record gs => .record (Entries.merge fs gs)
  | v, _ => v

def serviceNames : List String :=
  ["InMemoryCaseStatusGateway", "InMemoryChunkSearchProvider", "InMemoryCitationStore",
    "InMemoryEligibilityResultStore", "InMemoryFactSource", "InMemoryHumanReviewGateway",
    "InMemoryReasoningLogStore", "InMemoryRuleVersionSource", "MockEmbeddingProvider",
    "MockLLMProvider"]

end VisaEligibility.Bench.Sample
