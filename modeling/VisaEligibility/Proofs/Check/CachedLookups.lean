import Mathlib.Logic.Relation
import VisaEligibility.Proofs.Check.LookupCalls
/-!
Lookups on several dates that share a cache. Those for one visa type on one day are one lookup, the
one of the call that was made first; the others return what it has found, whether they are made
after it or while it is under way. So a version that lapses at noon is still returned in the evening
if it was looked up in the morning.
-/
set_option autoImplicit false

namespace VisaEligibility

open Relation

/-- Calls in the order they were made, those that were answered with the reply, and the lookups that
they share. -/
structure Loading where
  calls : List (LookupCall × Option (Except Raised RuleVersion)) := []
  lookups : List (String × SharedLookup) := []

namespace Loading

variable {source : VersionSource} {x y : Loading}

def made (x : Loading) : List LookupCall := x.calls.map Prod.fst

/-- What calls that share lookups can do. A call begins the lookup under its key or joins the one
that is there; the lookup settles at some later time, and then the calls that wait for it are
answered, in any order. A call without a key is answered at once. -/
inductive Step (source : VersionSource) : Loading → Loading → Prop where
  | undated {x : Loading} {c : LookupCall} (unkeyed : c.key? = none) :
      Step source x ⟨x.calls ++ [(c, some (.error (.failure .invalidTime)))], x.lookups⟩
  | begin {x : Loading} {c : LookupCall} {key : String} (keyed : c.key? = some key)
      (fresh : Entries.get? x.lookups key = none) :
      Step source x
        ⟨x.calls ++ [(c, none)], Entries.put x.lookups key (.underway c.visaTypeId c.asOf)⟩
  | join {x : Loading} {c : LookupCall} {key : String} {l : SharedLookup}
      (keyed : c.key? = some key) (found : Entries.get? x.lookups key = some l) :
      Step source x ⟨x.calls ++ [(c, none)], x.lookups⟩
  | settle {x : Loading} {key visaTypeId : String} {asOf : Instant}
      (found : Entries.get? x.lookups key = some (.underway visaTypeId asOf)) :
      Step source x
        ⟨x.calls, Entries.put x.lookups key (.settled (source.lookup visaTypeId asOf))⟩
  | answer {x : Loading} {n : Nat} {c : LookupCall} {key : String} {r : Except Raised RuleVersion}
      (waiting : x.calls[n]? = some (c, none)) (keyed : c.key? = some key)
      (found : Entries.get? x.lookups key = some (.settled r)) :
      Step source x ⟨x.calls.set n (c, some r), x.lookups⟩

abbrev Steps (source : VersionSource) : Loading → Loading → Prop := ReflTransGen (Step source)

/-- A lookup that a call has begun: it is under way, or has found what the call finds without a
cache. -/
def Of (source : VersionSource) (f : LookupCall) (l : SharedLookup) : Prop :=
  l = .underway f.visaTypeId f.asOf ∨ l = .settled (f.uncached source)

/-- What has become of a call: if it waits it has a key; if it was answered, then as the first call
under its key. -/
def Kept (source : VersionSource) (made : List LookupCall) (c : LookupCall) :
    Option (Except Raised RuleVersion) → Prop
  | none => ∃ key, c.key? = some key
  | some r => ∀ key, c.key? = some key →
      (LookupCall.first? made key).map (·.uncached source) = some r

/-- Under each key there is the lookup of the first call with that key. -/
structure Sound (source : VersionSource) (x : Loading) : Prop where
  shared : ∀ key, Option.Rel (Of source) (LookupCall.first? x.made key) (Entries.get? x.lookups key)
  kept : ∀ e ∈ x.calls, Kept source x.made e.1 e.2

theorem made_concat (x : Loading) (c : LookupCall) (reply : Option (Except Raised RuleVersion))
    (lookups : List (String × SharedLookup)) :
    made ⟨x.calls ++ [(c, reply)], lookups⟩ = x.made ++ [c] := by
  simp [made]

theorem made_answered {n : Nat} {c : LookupCall} {reply reply' : Option (Except Raised RuleVersion)}
    (turn : x.calls[n]? = some (c, reply)) (lookups : List (String × SharedLookup)) :
    made ⟨x.calls.set n (c, reply'), lookups⟩ = x.made := by
  have same : (x.calls.map Prod.fst)[n]? = some c := by simp [turn]
  obtain ⟨bound, he⟩ := List.getElem?_eq_some_iff.1 same
  simp only [made, List.map_set]
  rw [← he, List.set_getElem_self]

theorem Kept.later {made : List LookupCall} {c d : LookupCall}
    {reply : Option (Except Raised RuleVersion)} (hm : c ∈ made) (hk : Kept source made c reply) :
    Kept source (made ++ [d]) c reply := by
  cases reply with
  | none => exact hk
  | some r =>
    intro key keyed
    obtain ⟨f, hf⟩ := LookupCall.exists_first? hm keyed
    rw [LookupCall.first?_concat_of_some d hf, ← hf]
    exact hk key keyed

variable {c f : LookupCall} {key : String} {l : SharedLookup}
  {reply : Option (Except Raised RuleVersion)} {lookups : List (String × SharedLookup)}

theorem Sound.first_of_found (hs : Sound source x) (found : Entries.get? x.lookups key = some l) :
    ∃ f, LookupCall.first? x.made key = some f ∧ Of source f l := by
  have shared := hs.shared key
  rw [found] at shared
  generalize LookupCall.first? x.made key = first at shared ⊢
  cases shared with
  | some of => exact ⟨_, rfl, of⟩

theorem Sound.first_of_fresh (hs : Sound source x) (fresh : Entries.get? x.lookups key = none) :
    LookupCall.first? x.made key = none := by
  have shared := hs.shared key
  rw [fresh] at shared
  generalize LookupCall.first? x.made key = first at shared ⊢
  cases shared with
  | none => rfl

theorem shared_put {first : String → Option LookupCall} (hf : first key = some f)
    (of : Of source f l) (others : ∀ key', key' ≠ key →
      Option.Rel (Of source) (first key') (Entries.get? lookups key')) (key' : String) :
    Option.Rel (Of source) (first key') (Entries.get? (Entries.put lookups key l) key') := by
  by_cases same : key' = key
  · rw [same, hf, Entries.get?_put_self]
    exact .some of
  · rw [Entries.get?_put_of_ne _ _ same]
    exact others key' same

theorem Sound.call (hs : Sound source x)
    (shared : ∀ key, Option.Rel (Of source) (LookupCall.first? (x.made ++ [c]) key)
      (Entries.get? lookups key))
    (kept : Kept source (x.made ++ [c]) c reply) :
    Sound source ⟨x.calls ++ [(c, reply)], lookups⟩ := by
  refine ⟨?_, ?_⟩
  · rwa [made_concat]
  · rw [made_concat]
    intro e he
    rcases List.mem_append.1 he with he | he
    · exact (hs.kept e he).later (List.mem_map_of_mem he)
    · rwa [List.mem_singleton.1 he]

theorem Sound.begin (hs : Sound source x) (keyed : c.key? = some key)
    (fresh : Entries.get? x.lookups key = none) :
    Sound source
      ⟨x.calls ++ [(c, none)], Entries.put x.lookups key (.underway c.visaTypeId c.asOf)⟩ := by
  have first := LookupCall.first?_concat_of_none (hs.first_of_fresh fresh) keyed
  refine hs.call (shared_put first (.inl rfl) fun key' other => ?_) ⟨key, keyed⟩
  rw [LookupCall.first?_concat_of_ne x.made (LookupCall.key?_ne_of_ne keyed other)]
  exact hs.shared key'

theorem Sound.join (hs : Sound source x) (keyed : c.key? = some key)
    (found : Entries.get? x.lookups key = some l) :
    Sound source ⟨x.calls ++ [(c, none)], x.lookups⟩ := by
  refine hs.call (fun key' => ?_) ⟨key, keyed⟩
  by_cases same : key' = key
  · obtain ⟨f, first, of⟩ := hs.first_of_found found
    rw [same, LookupCall.first?_concat_of_some c first, found]
    exact .some of
  · rw [LookupCall.first?_concat_of_ne x.made (LookupCall.key?_ne_of_ne keyed same)]
    exact hs.shared key'

theorem Sound.settle (hs : Sound source x) {visaTypeId : String} {asOf : Instant}
    (found : Entries.get? x.lookups key = some (.underway visaTypeId asOf)) :
    Sound source
      ⟨x.calls, Entries.put x.lookups key (.settled (source.lookup visaTypeId asOf))⟩ := by
  obtain ⟨f, first, begun | settled⟩ := hs.first_of_found found
  · cases begun
    exact ⟨shared_put first (.inr rfl) fun key' _ => hs.shared key', hs.kept⟩
  · cases settled

theorem Sound.answer (hs : Sound source x) {n : Nat} {r : Except Raised RuleVersion}
    (waiting : x.calls[n]? = some (c, none)) (keyed : c.key? = some key)
    (found : Entries.get? x.lookups key = some (.settled r)) :
    Sound source ⟨x.calls.set n (c, some r), x.lookups⟩ := by
  have made : Loading.made ⟨x.calls.set n (c, some r), x.lookups⟩ = x.made :=
    made_answered waiting x.lookups
  refine ⟨?_, ?_⟩
  · rw [made]
    exact hs.shared
  · rw [made]
    intro e he
    rcases List.mem_or_eq_of_mem_set he with he | rfl
    · exact hs.kept e he
    · intro key' keyed'
      obtain rfl := Option.some.inj (keyed.symm.trans keyed')
      obtain ⟨f, first, begun | settled⟩ := hs.first_of_found found
      · cases begun
      · cases settled
        rw [first]
        rfl

theorem Sound.step (hs : Sound source x) (step : Step source x y) : Sound source y := by
  cases step with
  | undated unkeyed =>
    refine hs.call (fun key => ?_) (fun key keyed => ?_)
    · rw [LookupCall.first?_concat_of_ne x.made (by simp [unkeyed])]
      exact hs.shared key
    · cases unkeyed.symm.trans keyed
  | begin keyed fresh => exact hs.begin keyed fresh
  | join keyed found => exact hs.join keyed found
  | settle found => exact hs.settle found
  | answer waiting keyed found => exact hs.answer waiting keyed found

theorem Sound.of_steps (run : Steps source {} x) : Sound source x := by
  induction run with
  | refl => exact ⟨fun key => .none, fun e he => by cases he⟩
  | tail _ step ih => exact ih.step step

theorem Sound.answerable (hs : Sound source x) {n : Nat} (waiting : x.calls[n]? = some (c, none)) :
    ∃ r lookups, Steps source x ⟨x.calls.set n (c, some r), lookups⟩ := by
  have hm := List.mem_of_getElem? waiting
  obtain ⟨key, keyed⟩ := hs.kept _ hm
  obtain ⟨f, first⟩ := LookupCall.exists_first? (List.mem_map_of_mem hm) keyed
  cases found : Entries.get? x.lookups key with
  | none => cases first.symm.trans (hs.first_of_fresh found)
  | some l =>
    cases l with
    | underway visaTypeId asOf =>
      have settle : Step source x _ := .settle found
      exact ⟨_, _, .tail (.single settle) (.answer waiting keyed (Entries.get?_put_self ..))⟩
    | settled r => exact ⟨r, x.lookups, .single (.answer waiting keyed found)⟩

theorem Sound.follows (hs : Sound source x) (valid : c.asOf.isValid = true)
    {r : Except Raised RuleVersion} (hm : (c, some r) ∈ x.calls) :
    FollowsFirst source x.made c r := by
  obtain ⟨key, keyed⟩ := LookupCall.exists_key? valid
  obtain ⟨f, first, rfl⟩ := Option.map_eq_some_iff.1 (hs.kept _ hm key keyed)
  exact .of_first? keyed first

theorem answer_last {calls : List (LookupCall × Option (Except Raised RuleVersion))}
    (keyed : c.key? = some key) {r : Except Raised RuleVersion}
    (found : Entries.get? lookups key = some (.settled r)) :
    Step source ⟨calls ++ [(c, none)], lookups⟩ ⟨calls ++ [(c, some r)], lookups⟩ := by
  have waiting : (calls ++ [(c, none)])[calls.length]? = some (c, none) :=
    List.getElem?_concat_length
  have answer := @Step.answer source ⟨calls ++ [(c, none)], lookups⟩ _ _ _ _ waiting keyed found
  simpa only [List.set_append_right _ _ (Nat.le_refl _), Nat.sub_self, List.set_cons_zero]
    using answer

def Settled (lookups : List (String × SharedLookup)) (cache : LookupCache) : Prop :=
  ∀ key, Entries.get? lookups key = (Entries.get? cache key).map .settled

theorem Settled.put {cache : LookupCache} (settled : Settled lookups cache) (key : String)
    (other : SharedLookup) (r : Except Raised RuleVersion) :
    Settled (Entries.put (Entries.put lookups key other) key (.settled r))
      (Entries.put cache key r) := by
  intro key'
  by_cases same : key' = key
  · rw [same, Entries.get?_put_self, Entries.get?_put_self]
    rfl
  · rw [Entries.get?_put_of_ne _ _ same, Entries.get?_put_of_ne _ _ same,
      Entries.get?_put_of_ne _ _ same]
    exact settled key'

theorem steps_findCached {cache : LookupCache} (settled : Settled x.lookups cache) (l : RuleLookups)
    (c : LookupCall) :
    ∃ y, Steps l.source.find x y ∧
      y.calls = x.calls ++ [(c, some (l.findCached cache c.visaTypeId c.asOf).1)] ∧
      Settled y.lookups (l.findCached cache c.visaTypeId c.asOf).2.1 := by
  unfold RuleLookups.findCached
  cases keyed : LookupCache.key? c.visaTypeId c.asOf with
  | none => exact ⟨_, .single (.undated keyed), rfl, settled⟩
  | some key =>
    cases found : Entries.get? cache key with
    | some r =>
      have there : Entries.get? x.lookups key = some (.settled r) := by
        rw [settled key, found]
        rfl
      have join : Step l.source.find x _ := .join keyed there
      simp only [found]
      exact ⟨_, .tail (.single join) (answer_last keyed there), rfl, settled⟩
    | none =>
      have fresh : Entries.get? x.lookups key = none := by
        rw [settled key, found]
        rfl
      have begin : Step l.source.find x _ := .begin keyed fresh
      have settle := @Step.settle l.source.find
        ⟨x.calls ++ [(c, none)], Entries.put x.lookups key (.underway c.visaTypeId c.asOf)⟩ _ _ _
        (Entries.get?_put_self ..)
      simp only [found]
      exact ⟨_, .tail (.tail (.single begin) settle) (answer_last keyed (Entries.get?_put_self ..)),
        rfl, settled.put key _ _⟩

end Loading

namespace RuleLookups

theorem source_findCached (l : RuleLookups) (cache : LookupCache) (visaTypeId : String)
    (asOf : Instant) : (l.findCached cache visaTypeId asOf).2.2.source = l.source := by
  unfold findCached
  cases LookupCache.key? visaTypeId asOf with
  | none => rfl
  | some key => cases found : Entries.get? cache key <;> simp [found, find]

def loadAll : RuleLookups → LookupCache → List LookupCall → List (Except Raised RuleVersion)
  | _, _, [] => []
  | l, cache, c :: rest =>
    let (r, cache, l) := l.findCached cache c.visaTypeId c.asOf
    r :: loadAll l cache rest

theorem length_loadAll (l : RuleLookups) (cache : LookupCache) (calls : List LookupCall) :
    (l.loadAll cache calls).length = calls.length := by
  induction calls generalizing l cache with
  | nil => rfl
  | cons c rest ih => exact congrArg Nat.succ (ih _ _)

end RuleLookups

theorem Loading.steps_loadAll {x : Loading} {cache : LookupCache}
    (settled : Settled x.lookups cache) (l : RuleLookups) (calls : List LookupCall) :
    ∃ y, Steps l.source.find x y ∧
      y.calls = x.calls ++ calls.zip ((l.loadAll cache calls).map some) := by
  induction calls generalizing x cache l with
  | nil => exact ⟨x, .refl, by simp⟩
  | cons c rest ih =>
    obtain ⟨y, first, made, settled⟩ := steps_findCached settled l c
    obtain ⟨z, run, answered⟩ := ih settled (l.findCached cache c.visaTypeId c.asOf).2.2
    rw [RuleLookups.source_findCached] at run
    rw [made, List.append_assoc] at answered
    exact ⟨z, first.trans run, answered⟩

/-- A call that is made when those before it have returned returns too, and of calls that are made
side by side every one that waits can be answered. Each returns what the first call for its visa
type on its day does; the days of years of four digits are those of the calendar. -/
theorem Loading.replies_follow_first_of_day :
    (∀ (l : RuleLookups) (calls : List LookupCall) (n : Nat) c, calls[n]? = some c →
      c.asOf.isValid = true →
        ∃ r, (l.loadAll [] calls)[n]? = some r ∧ FollowsFirst l.source.find calls c r) ∧
    (∀ (source : VersionSource) (x : Loading), Steps source {} x → ∀ (n : Nat) c,
      (∀ r, x.calls[n]? = some (c, some r) → c.asOf.isValid = true →
        FollowsFirst source x.made c r) ∧
      (x.calls[n]? = some (c, none) →
        ∃ r lookups, Steps source x ⟨x.calls.set n (c, some r), lookups⟩)) ∧
    ∀ c d : LookupCall, c.asOf.HasFourDigitYear →
      (c.alike d = true ↔ d.visaTypeId = c.visaTypeId ∧ d.asOf.dayNumber? = c.asOf.dayNumber?) := by
  refine ⟨?_, fun source x run n c => ⟨?_, ?_⟩, fun c d dated => LookupCall.alike_iff dated d⟩
  · intro l calls n c asked valid
    obtain ⟨x, run, answers⟩ := @steps_loadAll {} [] (fun _ => rfl) l calls
    have bound : n < (l.loadAll [] calls).length := by
      rw [l.length_loadAll]
      exact (List.getElem?_eq_some_iff.1 asked).1
    have returned := List.getElem?_eq_getElem bound
    generalize (l.loadAll [] calls)[n] = r at returned
    have made : x.made = calls := by
      rw [Loading.made, answers, List.nil_append, List.map_fst_zip (by simp [l.length_loadAll])]
    have answered : (c, some r) ∈ x.calls := by
      rw [answers]
      refine List.mem_of_getElem? (i := n) ?_
      rw [List.nil_append, List.getElem?_zip_eq_some, List.getElem?_map, returned]
      exact ⟨asked, rfl⟩
    refine ⟨r, returned, ?_⟩
    rw [← made]
    exact (Sound.of_steps run).follows valid answered
  · intro r answered valid
    exact (Sound.of_steps run).follows valid (List.mem_of_getElem? answered)
  · intro waiting
    exact (Sound.of_steps run).answerable waiting

def lapsing : RuleVersion :=
  { id := "rv-noon", visaTypeId := "skilled", visaCode := "SKW", effectiveFrom := .ofMillis 0
    effectiveTo := some (.ofMillis 43200000), published := true, createdAt := .ofMillis 0
    requirements := [] }

def noonRules : RuleLookups := { source := { versions := [lapsing] } }

def morning : LookupCall := ⟨"skilled", .ofMillis 28800000⟩

def evening : LookupCall := ⟨"skilled", .ofMillis 64800000⟩

theorem Loading.evening_follows_morning :
    (∃ r, (noonRules.loadAll [] [morning, evening])[1]? = some r ∧
      FollowsFirst noonRules.source.find [morning, evening] evening r) ∧
    (∃ x, Steps noonRules.source.find {} x ∧ x.calls[1]? = some (evening, some (.ok lapsing)) ∧
      FollowsFirst noonRules.source.find x.made evening (.ok lapsing) ∧
      ∃ r lookups, Steps noonRules.source.find x ⟨x.calls.set 0 (morning, some r), lookups⟩) ∧
    morning.alike evening = true := by
  let source := noonRules.source.find
  let day := "skilled|1970-01-01"
  have keyed : morning.key? = some day ∧ evening.key? = some day := ⟨rfl, rfl⟩
  have begin : Step source {} ⟨[(morning, none)], [(day, .underway "skilled" morning.asOf)]⟩ :=
    .begin keyed.1 rfl
  have join : Step source ⟨[(morning, none)], [(day, .underway "skilled" morning.asOf)]⟩
      ⟨[(morning, none), (evening, none)], [(day, .underway "skilled" morning.asOf)]⟩ :=
    .join keyed.2 rfl
  have settle : Step source
      ⟨[(morning, none), (evening, none)], [(day, .underway "skilled" morning.asOf)]⟩
      ⟨[(morning, none), (evening, none)], [(day, .settled (.ok lapsing))]⟩ :=
    @Step.settle source ⟨_, [(day, .underway "skilled" morning.asOf)]⟩ day _ _ rfl
  have answer : Step source
      ⟨[(morning, none), (evening, none)], [(day, .settled (.ok lapsing))]⟩
      ⟨[(morning, none), (evening, some (.ok lapsing))], [(day, .settled (.ok lapsing))]⟩ :=
    @Step.answer source ⟨[(morning, none), (evening, none)], _⟩ 1 _ day _ rfl keyed.2 rfl
  have run := (((ReflTransGen.single begin).tail join).tail settle).tail answer
  refine ⟨?_, ⟨_, run, rfl, ?_, ?_⟩, ?_⟩
  · exact replies_follow_first_of_day.1 noonRules [morning, evening] 1 evening rfl rfl
  · exact (replies_follow_first_of_day.2.1 source _ run 1 evening).1 _ rfl rfl
  · exact (replies_follow_first_of_day.2.1 source _ run 0 morning).2 rfl
  · exact (replies_follow_first_of_day.2.2 morning evening ⟨by decide, by decide⟩).2 ⟨rfl, rfl⟩

/-- The evening's lookup returns a version that has lapsed by then, where it would fail without a
cache. -/
theorem RuleLookups.lapsed_version_returned :
    noonRules.loadAll [] [morning, evening] = [.ok lapsing, .ok lapsing] ∧
      (noonRules.find evening.visaTypeId evening.asOf).1 =
        .error (.failure (.noRuleVersion "skilled" evening.asOf)) ∧
      lapsing.isInForce evening.asOf = false :=
  ⟨rfl, rfl, rfl⟩

end VisaEligibility
