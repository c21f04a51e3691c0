import VisaEligibility.Failure.Basic
import VisaEligibility.Rule.Version
/-!
Looking up the version in force for a visa type on a date. The lookups of one run share a cache, by
visa type and calendar day, so that each is made once; what it found or raised is kept.
-/
set_option autoImplicit false

namespace VisaEligibility

/-- Where versions are looked up: those on record, unless the source fails. -/
structure RuleSource where
  versions : List RuleVersion := []
  fault : Option Raised := none

namespace RuleSource

def find (s : RuleSource) (visaTypeId : String) (asOf : Instant) :
    Except Raised (List RuleVersion) :=
  match s.fault with
  | some e => .error e
  | none => .ok (s.versions.filter fun v => v.visaTypeId == visaTypeId && v.isInForce asOf)

end RuleSource

namespace RuleVersion

/-- The version in force among candidates. Several in force at once are reported with the date,
which then has to be valid. -/
def choose (visaTypeId : String) (asOf : Instant) (candidates : List RuleVersion) :
    Except Raised RuleVersion :=
  match select candidates asOf with
  | none => .error (.failure (.noRuleVersion visaTypeId asOf))
  | some v =>
    if 1 < (candidates.filter (·.isInForce asOf)).length && !asOf.isValid then
      .error (.failure .invalidTime)
    else .ok v

end RuleVersion

/-- What the lookups of a run have found so far, by visa type and day. -/
abbrev LookupCache := List (String × Except Raised RuleVersion)

namespace LookupCache

/-- The key of a lookup; an invalid date has none. -/
def key? (visaTypeId : String) (asOf : Instant) : Option String :=
  asOf.day?.map fun day => visaTypeId ++ "|" ++ day

end LookupCache

structure RuleLookups where
  source : RuleSource := {}
  calls : Nat := 0

namespace RuleLookups

def find (l : RuleLookups) (visaTypeId : String) (asOf : Instant) :
    Except Raised RuleVersion × RuleLookups :=
  ((l.source.find visaTypeId asOf).bind (RuleVersion.choose visaTypeId asOf),
    { l with calls := l.calls + 1 })

/-- A lookup that is made unless the cache has it. -/
def findCached (l : RuleLookups) (cache : LookupCache) (visaTypeId : String) (asOf : Instant) :
    Except Raised RuleVersion × LookupCache × RuleLookups :=
  match LookupCache.key? visaTypeId asOf with
  | none => (.error (.failure .invalidTime), cache, l)
  | some key =>
    match Entries.get? cache key with
    | some r => (r, cache, l)
    | none =>
      let (r, l) := l.find visaTypeId asOf
      (r, Entries.put cache key r, l)

end RuleLookups

/-- Lookups with caches by name; a cache is there from its first use on. -/
structure NamedLookups where
  lookups : RuleLookups := {}
  caches : List (String × LookupCache) := []

namespace NamedLookups

def load (n : NamedLookups) (visaTypeId : String) (asOf : Instant) (cache : Option String) :
    Except Raised RuleVersion × NamedLookups :=
  match cache with
  | none =>
    let (r, l) := n.lookups.find visaTypeId asOf
    (r, { n with lookups := l })
  | some name =>
    let (r, c, l) :=
      n.lookups.findCached ((Entries.get? n.caches name).getD []) visaTypeId asOf
    (r, ⟨l, Entries.put n.caches name c⟩)

def addVersions (n : NamedLookups) (vs : List RuleVersion) : NamedLookups :=
  { n with lookups.source.versions := n.lookups.source.versions ++ vs }

def setFault (n : NamedLookups) (fault : Option Raised) : NamedLookups :=
  { n with lookups.source.fault := fault }

end NamedLookups
end VisaEligibility
