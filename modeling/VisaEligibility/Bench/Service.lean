import VisaEligibility.Bench.Session
import VisaEligibility.Metrics.Exposition
import VisaEligibility.Validation.Request
import VisaEligibility.Web.Answer
import VisaEligibility.Web.Request
import VisaEligibility.Web.Route
import VisaEligibility.Web.View
/-!
Requests answered on a bench. A body that is malformed is refused before the path is looked at; a
request that fails validation reaches no store and no service. Every request is counted once it is
answered.
-/
set_option autoImplicit false

namespace VisaEligibility.Bench

open Web (Request Answer Page Place Destination HealthChecks)

structure Service where
  settings : EngineSettings
  checks : HealthChecks := []

namespace Service

/-- An answer with the name under which its request is counted. -/
structure Reply where
  answer : Answer
  label : String

def rejected (is : List Issue) : Raised :=
  .failure (.badRequest "Validation failed" (some [("details", .list (is.map (·.toValue)))]))

def pathParams (caseId : String) : Value := .record [("caseId", .text caseId)]

/-- What params and a body ask for: the params are validated first, the body then. -/
def asked (params body : Value) : Except Raised (String × CheckBody) := do
  let caseId ← (Validation.caseId params).mapError rejected
  let body ← (Validation.checkBody body).mapError rejected
  return (caseId, body)

def checkInput (caseId : String) (body : Value) : Except Raised (String × CheckBody) :=
  asked (pathParams caseId) body

def perform (sv : Service) (asked : Except Raised (String × CheckBody)) (s : Session) :
    Except Raised Answer × Session :=
  match asked with
  | .error e => (.error e, s)
  | .ok (caseId, body) =>
    let (r, s) := s.checkBatch sv.settings caseId body.visaTypeIds body.options
    (r.map fun report => .json 200 report.view, s)

def check (sv : Service) (caseId : String) (body : Value) (s : Session) :
    Except Raised Answer × Session :=
  sv.perform (checkInput caseId body) s

def results (caseId : String) (s : Session) : Except Raised Answer := do
  let caseId ← (Validation.caseId (pathParams caseId)).mapError rejected
  let stored ← s.list caseId
  return .json 200 (.record [("caseId", .text caseId),
    ("results", .list (stored.map fun r => .record r.toFields))])

def page (sv : Service) (p : Page) (caseId : String) (body : Value) (s : Session) :
    Except Raised Answer × Session :=
  match p with
  | .health => (sv.checks.answer s.bench.now, s)
  | .metrics => (.ok (.lines s.bench.counters.exposition), s)
  | .check => sv.check caseId body s
  | .results => (results caseId s, s)

def unreadableCase : Raised := .failure (.general "Failed to decode the case in the path")

def noRoute (r : Request) : Raised :=
  .failure (.notFound .notFound "Route" (some (r.method ++ " " ++ r.path)) [])

def reply (sv : Service) (r : Request) (s : Session) : Reply × Session :=
  let failed := fun (label : String) (e : Raised) => Reply.mk (.ofRaised e r.path s.bench.now) label
  match r.value? with
  | none =>
    (⟨.ofError (.malformedBody r.path) s.bench.now, Destination.unmatched⟩, s)
  | some body =>
    match Destination.ofRequest r.method r.path with
    | .page place caseId =>
      match sv.page place.page caseId body s with
      | (.ok a, s) => (⟨a, place.label⟩, s)
      | (.error e, s) => (failed place.failureLabel e, s)
    | .unreadable => (failed Destination.unmatched unreadableCase, s)
    | .methods names => (⟨.methods names, Destination.unmatched⟩, s)
    | .missing label => (failed label (noRoute r), s)

def serve (sv : Service) (r : Request) (s : Session) : Answer × Session :=
  let (reply, s) := sv.reply r s
  let counted := Counter.httpRequest r.method reply.label reply.answer.status.text
  (reply.answer.sentTo r.method,
    s.change fun b => { b with counters := b.counters.count counted })

end Service
end VisaEligibility.Bench
