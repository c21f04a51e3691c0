import VisaEligibility.Proofs.Calendar.Days
import VisaEligibility.Proofs.Check.SharedLookups
import VisaEligibility.Proofs.Rule.Selection
/-!
Calls that look up rule versions, and which of them share a lookup: those for one visa type on one
day, since a key splits into the two.
-/
set_option autoImplicit false

namespace VisaEligibility

structure LookupCall where
  visaTypeId : String
  asOf : Instant
deriving DecidableEq

namespace LookupCall

def key? (c : LookupCall) : Option String := LookupCache.key? c.visaTypeId c.asOf

def alike (c d : LookupCall) : Bool :=
  d.visaTypeId == c.visaTypeId && d.asOf.day? == c.asOf.day?

def uncached (c : LookupCall) (source : VersionSource) : Except Raised RuleVersion :=
  source.lookup c.visaTypeId c.asOf

/-- The key splits into the visa type and the day, since all days are written with the same
length. -/
theorem key?_eq_some_iff {c d : LookupCall} {key : String} (hc : c.key? = some key) :
    d.key? = some key ↔ d.visaTypeId = c.visaTypeId ∧ d.asOf.day? = c.asOf.day? := by
  constructor
  · intro hd
    obtain ⟨day, hday, rfl⟩ := Option.map_eq_some_iff.1 hc
    obtain ⟨day', hday', same⟩ := Option.map_eq_some_iff.1 hd
    have written := congrArg String.toList same
    simp only [String.toList_append] at written
    obtain ⟨ids, days⟩ := List.append_inj' written
      (by rw [Instant.length_day? hday, Instant.length_day? hday'])
    refine ⟨String.toList_inj.1 (List.append_cancel_right ids), ?_⟩
    rw [hday, hday', String.toList_inj.1 days]
  · rintro ⟨ids, days⟩
    rw [← hc, key?, key?, LookupCache.key?, LookupCache.key?, ids, days]

theorem alike_iff {c : LookupCall} (dated : c.asOf.HasFourDigitYear) (d : LookupCall) :
    c.alike d = true ↔
      d.visaTypeId = c.visaTypeId ∧ d.asOf.dayNumber? = c.asOf.dayNumber? := by
  rw [alike, Bool.and_eq_true, beq_iff_eq, beq_iff_eq, Instant.day?_eq_iff dated]

theorem isValid_of_key? {c : LookupCall} {key : String} (hc : c.key? = some key) :
    c.asOf.isValid = true := by
  obtain ⟨id, asOf⟩ := c
  cases asOf with
  | invalid => cases hc
  | ofMillis ms => rfl

theorem exists_key? {c : LookupCall} (valid : c.asOf.isValid = true) :
    ∃ key, c.key? = some key := by
  obtain ⟨id, asOf⟩ := c
  cases asOf with
  | invalid => cases valid
  | ofMillis ms => exact ⟨_, rfl⟩

end LookupCall

namespace VersionSource

variable {source : VersionSource} {visaTypeId : String} {d e : Instant}

theorem isInForce_of_lookup {v : RuleVersion} (found : source.lookup visaTypeId d = .ok v) :
    v.isInForce d = true := by
  unfold lookup at found
  cases candidates : source visaTypeId d with
  | error e =>
    rw [candidates] at found
    cases found
  | ok vs =>
    rw [candidates] at found
    exact (RuleVersion.isNewest_of_choose found).inForce

/-- The source says the same at two times, and none of the versions it lists comes into force or
lapses between them. -/
def Steady (source : VersionSource) (visaTypeId : String) (d e : Instant) : Prop :=
  source visaTypeId d = source visaTypeId e ∧
    ∀ vs, source visaTypeId e = .ok vs → ∀ v ∈ vs, v.isInForce d = v.isInForce e

theorem Steady.toOption_lookup (steady : source.Steady visaTypeId d e) (hd : d.isValid = true)
    (he : e.isValid = true) :
    (source.lookup visaTypeId d).toOption = (source.lookup visaTypeId e).toOption := by
  unfold lookup
  rw [steady.1]
  cases listed : source visaTypeId e with
  | error e => rfl
  | ok vs =>
    have inForce : vs.filter (·.isInForce d) = vs.filter (·.isInForce e) :=
      List.filter_congr (steady.2 vs listed)
    simp only [Except.bind, RuleVersion.choose, RuleVersion.select, inForce, hd, he]
    cases (Sorting.sort RuleVersion.before (vs.filter (·.isInForce e))).head? with
    | none => rfl
    | some v => simp

end VersionSource

/-- A reply is what the first call for the visa type on the day returns without a cache. The version
is in force at the time of that call, and is the one that the call itself would return without a
cache where nothing changes from one to the other. -/
def FollowsFirst (source : VersionSource) (calls : List LookupCall) (c : LookupCall)
    (r : Except Raised RuleVersion) : Prop :=
  ∃ f, calls.find? c.alike = some f ∧ r = source.lookup c.visaTypeId f.asOf ∧
    (∀ v, r = .ok v → v.isInForce f.asOf = true) ∧
    (source.Steady c.visaTypeId f.asOf c.asOf →
      r.toOption = (source.lookup c.visaTypeId c.asOf).toOption)

def LookupCall.first? (calls : List LookupCall) (key : String) : Option LookupCall :=
  calls.find? fun c => c.key? == some key

namespace LookupCall

variable {calls : List LookupCall} {c f : LookupCall} {key : String}

theorem key?_of_first? (hf : first? calls key = some f) : f.key? = some key := by
  unfold first? at hf
  simpa using List.find?_some hf

theorem key?_ne_of_ne {key' : String} (keyed : c.key? = some key) (other : key' ≠ key) :
    c.key? ≠ some key' := by
  rw [keyed]
  exact fun same => other (Option.some.inj same).symm

theorem exists_first? (hm : c ∈ calls) (keyed : c.key? = some key) :
    ∃ f, first? calls key = some f := by
  refine Option.isSome_iff_exists.1 (List.find?_isSome.2 ⟨c, hm, ?_⟩)
  rw [keyed, beq_self_eq_true]

theorem first?_concat_of_some (c : LookupCall) (hf : first? calls key = some f) :
    first? (calls ++ [c]) key = some f := by
  unfold first? at hf ⊢
  rw [List.find?_append, hf, Option.some_or]

theorem first?_concat_of_none (hf : first? calls key = none) (keyed : c.key? = some key) :
    first? (calls ++ [c]) key = some c := by
  unfold first? at hf ⊢
  rw [List.find?_append, hf, Option.none_or]
  simp [keyed]

theorem first?_concat_of_ne (calls : List LookupCall) (other : c.key? ≠ some key) :
    first? (calls ++ [c]) key = first? calls key := by
  unfold first?
  rw [List.find?_append]
  simp [other]

theorem find?_alike (keyed : c.key? = some key) : calls.find? c.alike = first? calls key := by
  refine congrArg (fun p => calls.find? p) (funext fun d => ?_)
  rw [Bool.eq_iff_iff, beq_iff_eq, key?_eq_some_iff keyed, alike, Bool.and_eq_true, beq_iff_eq,
    beq_iff_eq]

end LookupCall

theorem FollowsFirst.of_first? {source : VersionSource} {calls : List LookupCall} {c f : LookupCall}
    {key : String} (keyed : c.key? = some key)
    (first : LookupCall.first? calls key = some f) :
    FollowsFirst source calls c (f.uncached source) := by
  have keyed' := LookupCall.key?_of_first? first
  have same := (LookupCall.key?_eq_some_iff keyed).1 keyed'
  refine ⟨f, (LookupCall.find?_alike keyed).trans first, ?_, fun v hv => ?_, fun steady => ?_⟩
  · rw [LookupCall.uncached, same.1]
  · exact VersionSource.isInForce_of_lookup hv
  · rw [LookupCall.uncached, same.1]
    exact steady.toOption_lookup (LookupCall.isValid_of_key? keyed')
      (LookupCall.isValid_of_key? keyed)

end VisaEligibility
