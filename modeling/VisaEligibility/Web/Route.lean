import VisaEligibility.Web.Escape
/-!
Which page a path names. Paths match in any case and with one slash more at the end; the pages of
cases lie below a mount, which keeps the spelling of the request. A page that answers `GET` also
answers `HEAD`.
-/
set_option autoImplicit false

namespace VisaEligibility.Web

inductive Page where
  | health
  | metrics
  | check
  | results
deriving DecidableEq, Repr

namespace Page

def method : Page → String
  | check => "POST"
  | _ => "GET"

def pattern : Page → String
  | health => "/health"
  | metrics => "/metrics"
  | check => "/cases/:caseId/eligibility"
  | results => "/cases/:caseId/eligibility-results"

def isMounted : Page → Bool
  | check | results => true
  | health | metrics => false

def answers (p : Page) (method : String) : Bool :=
  method == p.method || (method == "HEAD" && p.method == "GET")

def methods (p : Page) : List String := if p.method == "GET" then ["GET", "HEAD"] else [p.method]

end Page

/-- A page at its path, with its mount and the case as they are written. -/
structure Place where
  page : Page
  mount : String := ""
  caseText : String := ""
deriving DecidableEq, Repr

namespace Place

def named (segment name : String) : Bool := segment.toLower == name

def ofCase? (mount cases caseText last : String) : Option Place :=
  if !named mount "api" || !named cases "cases" || caseText.isEmpty then none
  else if named last "eligibility" then some ⟨.check, "/" ++ mount, caseText⟩
  else if named last "eligibility-results" then some ⟨.results, "/" ++ mount, caseText⟩
  else none

def dropLastEmpty (segments : List String) : List String :=
  if segments.getLast? = some "" then segments.dropLast else segments

def ofSegments? : List String → Option Place
  | ["", name] =>
    if named name "health" then some { page := .health }
    else if named name "metrics" then some { page := .metrics }
    else none
  | ["", mount, cases, caseText, last] => ofCase? mount cases caseText last
  | ["", mount, "", cases, caseText, last] => ofCase? mount cases caseText last
  | _ => none

def ofPath? (path : String) : Option Place :=
  ofSegments? (dropLastEmpty ((path.toList.splitOn '/').map String.ofList))

/-- How the metrics name a page that answered, and one that reported a failure. -/
def label (p : Place) : String := p.mount ++ p.page.pattern

def failureLabel (p : Place) : String := p.page.pattern

end Place

/-- What a method and a path lead to: a page with the case it is about, a case that cannot be read,
the list of methods of a page, or nothing, with the name that metrics give to it. -/
inductive Destination where
  | page (place : Place) (caseId : String)
  | unreadable
  | methods (names : List String)
  | missing (label : String)
deriving DecidableEq, Repr

namespace Destination

def unmatched : String := "unmatched"

def ofPlace (method : String) (p : Place) : Destination :=
  match Escape.decode? p.caseText with
  | none => .unreadable
  | some caseId =>
    if p.page.answers method then .page p caseId
    else if !p.page.isMounted then .missing unmatched
    else if method == "OPTIONS" then .methods p.page.methods
    else if method == "HEAD" then .missing p.failureLabel
    else .missing unmatched

def ofRequest (method path : String) : Destination :=
  match Place.ofPath? path with
  | some p => ofPlace method p
  | none => .missing unmatched

end Destination
end VisaEligibility.Web
