/-!
Counters of what the engine did, by name and labels, in the order they were first counted.
-/
set_option autoImplicit false

namespace VisaEligibility

structure Counter where
  name : String
  labels : List (String × String)
deriving DecidableEq, Repr

namespace Counter

def httpRequest (method route status : String) : Counter :=
  ⟨"http_requests_total", [("method", method), ("route", route), ("status_code", status)]⟩

def check (outcome status : String) : Counter :=
  ⟨"eligibility_checks_total", [("outcome", outcome), ("status", status)]⟩

def reasoning (status failure : String) : Counter :=
  ⟨"ai_reasoning_total", [("status", status), ("failure", failure)]⟩

def escalation (reason : String) : Counter :=
  ⟨"eligibility_escalations_total", [("reason", reason)]⟩

def modelCall (provider model status : String) : Counter :=
  ⟨"llm_calls_total", [("provider", provider), ("model", model), ("status", status)]⟩

end Counter

structure Counters where
  counts : List (Counter × Nat) := []
deriving DecidableEq, Repr, Inhabited

namespace Counters

def add (c : Counter) : List (Counter × Nat) → List (Counter × Nat)
  | [] => [(c, 1)]
  | e :: es => if e.1 = c then (c, e.2 + 1) :: es else e :: add c es

def count (cs : Counters) (c : Counter) : Counters := ⟨add c cs.counts⟩

def value (cs : Counters) (c : Counter) : Nat := ((cs.counts.find? fun e => e.1 = c).map Prod.snd).getD 0

end Counters
end VisaEligibility
