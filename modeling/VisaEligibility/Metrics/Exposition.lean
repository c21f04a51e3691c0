import VisaEligibility.Metrics.Counter
/-!
Counters written out for collection: for each metric what it is, and for a counter one line per
combination of labels.
-/
set_option autoImplicit false

namespace VisaEligibility

inductive MetricKind where
  | counter
  | histogram
  | gauge
deriving DecidableEq, Repr

def MetricKind.name : MetricKind → String
  | counter => "counter"
  | histogram => "histogram"
  | gauge => "gauge"

structure Metric where
  name : String
  kind : MetricKind
  help : String
deriving DecidableEq, Repr

namespace Metric

def all : List Metric :=
  [⟨"http_request_duration_seconds", .histogram, "Duration of HTTP requests in seconds"⟩,
    ⟨"http_requests_total", .counter, "Total number of HTTP requests"⟩,
    ⟨"eligibility_checks_total", .counter, "Total number of eligibility checks by final outcome"⟩,
    ⟨"eligibility_check_duration_seconds", .histogram,
      "Duration of eligibility checks in seconds"⟩,
    ⟨"ai_reasoning_total", .counter, "AI reasoning runs by status and failure kind"⟩,
    ⟨"eligibility_escalations_total", .counter, "Checks routed to human review, by reason"⟩,
    ⟨"llm_calls_total", .counter, "Total number of LLM API calls"⟩,
    ⟨"llm_call_duration_seconds", .histogram, "Duration of LLM API calls in seconds"⟩,
    ⟨"memory_usage_bytes", .gauge, "Memory usage in bytes"⟩]

def heading (m : Metric) : List String :=
  ["# HELP " ++ m.name ++ " " ++ m.help, "# TYPE " ++ m.name ++ " " ++ m.kind.name]

end Metric

namespace Counter

def escapeChar (c : Char) : List Char :=
  match c with
  | '\\' => ['\\', '\\']
  | '\n' => ['\\', 'n']
  | '"' => ['\\', '"']
  | c => [c]

def labelText (l : String × String) : String :=
  l.1 ++ "=\"" ++ String.ofList (l.2.toList.flatMap escapeChar) ++ "\""

def line (c : Counter) (n : Nat) : String :=
  c.name ++ "\x7b" ++ String.intercalate "," (c.labels.map labelText) ++ "\x7d " ++ toString n

end Counter

namespace Counters

def exposition (cs : Counters) : List String :=
  Metric.all.flatMap fun m =>
    m.heading ++ (cs.counts.filter fun e => e.1.name == m.name).map fun e => e.1.line e.2

end Counters
end VisaEligibility
