import VisaEligibility.Proofs.Check.Grounding
import VisaEligibility.Proofs.Program.Interleaving
import VisaEligibility.Rule.Lookup
/-!
Lookups that are shared. Programs that run side by side share a cache of lookups, each made once and
waited for by all that ask for it. On one date no two visa types share a lookup, so every program
gets what it would get from a lookup of its own, whenever that is made and whoever made it.
-/
set_option autoImplicit false

namespace VisaEligibility

open Program

abbrev VersionSource := String → Instant → Except Raised (List RuleVersion)

namespace VersionSource

def lookup (source : VersionSource) (visaTypeId : String) (asOf : Instant) :
    Except Raised RuleVersion :=
  (source visaTypeId asOf).bind (RuleVersion.choose visaTypeId asOf)

def lookupDated (source : VersionSource) (visaTypeId : String) (asOf : Instant) :
    Except Raised RuleVersion :=
  match LookupCache.key? visaTypeId asOf with
  | none => .error (.failure .invalidTime)
  | some _ => source.lookup visaTypeId asOf

end VersionSource

theorem LookupCache.key?_injective {a b key : String} {asOf : Instant}
    (ha : LookupCache.key? a asOf = some key) (hb : LookupCache.key? b asOf = some key) : a = b := by
  unfold LookupCache.key? at ha hb
  cases hd : asOf.day? with
  | none => simp [hd] at ha
  | some day =>
    simp only [hd, Option.map_some, Option.some.injEq] at ha hb
    have same := congrArg String.toList (ha.trans hb.symm)
    simp only [String.toList_append, List.append_cancel_right_eq] at same
    exact String.toList_inj.1 same

/-- A lookup in a shared cache: under way, or settled with what it found or raised. -/
inductive SharedLookup where
  | underway (visaTypeId : String) (asOf : Instant)
  | settled (result : Except Raised RuleVersion)

structure Sharing (α : Type) where
  programs : List (Engine α)
  lookups : List (String × SharedLookup) := []

def Call.isLookup : Call → Bool
  | .ruleVersion _ _ => true
  | _ => false

namespace Sharing

variable {α : Type} {source : VersionSource} {asOf : Instant}

/-- The steps of programs that share lookups, in any order. A program that asks for a lookup that is
not there begins it; the lookup settles at some later time, and then all who ask go on with what it
has found. Any other call is one program's own. -/
inductive Steps (source : VersionSource) :
    Sharing α → SharedHistory Call.interface → Sharing α → Prop where
  | here (x : Sharing α) : Steps source x [] x
  | begin {x y : Sharing α} {h : SharedHistory Call.interface} {n : Nat} {visaTypeId key : String}
      {asOf : Instant} {k : Except Raised RuleVersion → Engine α}
      (turn : x.programs[n]? = some (.call (.ruleVersion visaTypeId asOf) k))
      (keyed : LookupCache.key? visaTypeId asOf = some key)
      (fresh : Entries.get? x.lookups key = none)
      (rest : Steps source ⟨x.programs, Entries.put x.lookups key (.underway visaTypeId asOf)⟩ h y) :
      Steps source x h y
  | settle {x y : Sharing α} {h : SharedHistory Call.interface} {visaTypeId key : String}
      {asOf : Instant} (found : Entries.get? x.lookups key = some (.underway visaTypeId asOf))
      (rest : Steps source
        ⟨x.programs, Entries.put x.lookups key (.settled (source.lookup visaTypeId asOf))⟩ h y) :
      Steps source x h y
  | resume {x y : Sharing α} {h : SharedHistory Call.interface} {n : Nat} {visaTypeId key : String}
      {asOf : Instant} {k : Except Raised RuleVersion → Engine α} {r : Except Raised RuleVersion}
      (turn : x.programs[n]? = some (.call (.ruleVersion visaTypeId asOf) k))
      (keyed : LookupCache.key? visaTypeId asOf = some key)
      (found : Entries.get? x.lookups key = some (.settled r))
      (rest : Steps source ⟨x.programs.set n (k r), x.lookups⟩ h y) :
      Steps source x ((n, ⟨.ruleVersion visaTypeId asOf, r⟩) :: h) y
  | undated {x y : Sharing α} {h : SharedHistory Call.interface} {n : Nat} {visaTypeId : String}
      {asOf : Instant} {k : Except Raised RuleVersion → Engine α}
      (turn : x.programs[n]? = some (.call (.ruleVersion visaTypeId asOf) k))
      (unkeyed : LookupCache.key? visaTypeId asOf = none)
      (rest : Steps source
        ⟨x.programs.set n (k (.error (.failure .invalidTime))), x.lookups⟩ h y) :
      Steps source x
        ((n, ⟨.ruleVersion visaTypeId asOf, .error (.failure .invalidTime)⟩) :: h) y
  | other {x y : Sharing α} {h : SharedHistory Call.interface} {n : Nat} {c : Call}
      {k : Call.Reply c → Engine α} (turn : x.programs[n]? = some (.call c k))
      (hc : c.isLookup = false) (r : Call.Reply c)
      (rest : Steps source ⟨x.programs.set n (k r), x.lookups⟩ h y) :
      Steps source x ((n, ⟨c, r⟩) :: h) y

theorem Steps.interleaves {x y : Sharing α} {h : SharedHistory Call.interface}
    (hs : Steps source x h y) : Interleaves x.programs h y.programs := by
  induction hs with
  | here x => exact .here _
  | begin _ _ _ _ ih => exact ih
  | settle _ _ ih => exact ih
  | resume turn _ _ _ ih => exact .step turn _ ih
  | undated turn _ _ ih => exact .step turn _ ih
  | other turn _ r _ ih => exact .step turn r ih

def asksOn (asOf : Instant) : Call → Bool
  | .ruleVersion _ d => d = asOf
  | _ => true

def asksFor (visaTypeId : String) (asOf : Instant) : Call → Bool
  | .ruleVersion v d => v = visaTypeId && d = asOf
  | _ => true

theorem asksOn_of_asksFor {visaTypeId : String} {c : Call}
    (hc : asksFor visaTypeId asOf c = true) : asksOn asOf c = true := by
  cases c with
  | ruleVersion v d => exact (Bool.and_eq_true_iff.1 hc).2
  | _ => rfl

def Sound (source : VersionSource) (asOf : Instant) (lookups : List (String × SharedLookup)) : Prop :=
  ∀ key l, Entries.get? lookups key = some l →
    ∃ visaTypeId, LookupCache.key? visaTypeId asOf = some key ∧
      (l = .underway visaTypeId asOf ∨ l = .settled (source.lookup visaTypeId asOf))

theorem Sound.put {lookups : List (String × SharedLookup)} (hs : Sound source asOf lookups)
    {visaTypeId key : String} (keyed : LookupCache.key? visaTypeId asOf = some key)
    {l : SharedLookup}
    (hl : l = .underway visaTypeId asOf ∨ l = .settled (source.lookup visaTypeId asOf)) :
    Sound source asOf (Entries.put lookups key l) := by
  intro other l' hl'
  by_cases he : other = key
  · subst he
    rw [Entries.get?_put_self] at hl'
    cases hl'
    exact ⟨visaTypeId, keyed, hl⟩
  · rw [Entries.get?_put_of_ne _ _ he] at hl'
    exact hs other l' hl'

theorem only_set {kind : Call → Bool} {ps : List (Engine α)} (hp : ∀ p ∈ ps, p.Only kind)
    {n : Nat} {c : Call} {k : Call.Reply c → Engine α} (turn : ps[n]? = some (.call c k))
    (r : Call.Reply c) : ∀ p ∈ ps.set n (k r), p.Only kind := by
  intro p hm
  rcases List.mem_or_eq_of_mem_set hm with hm | rfl
  · exact hp p hm
  · exact (hp _ (List.mem_of_getElem? turn)).2 r

/-- Programs that ask on one date, with what has been looked up for them. -/
structure Ready (source : VersionSource) (asOf : Instant) (x : Sharing α) : Prop where
  asks : ∀ p ∈ x.programs, p.Only (asksOn asOf)
  sound : Sound source asOf x.lookups

theorem Ready.date {x : Sharing α} (hr : Ready source asOf x) {n : Nat} {visaTypeId : String}
    {d : Instant} {k : Except Raised RuleVersion → Engine α}
    (turn : x.programs[n]? = some (.call (.ruleVersion visaTypeId d) k)) : d = asOf := by
  have := (hr.asks _ (List.mem_of_getElem? turn)).1
  simpa [asksOn] using this

theorem Ready.next {x : Sharing α} (hr : Ready source asOf x) {n : Nat} {c : Call}
    {k : Call.Reply c → Engine α} (turn : x.programs[n]? = some (.call c k)) (r : Call.Reply c) :
    Ready source asOf ⟨x.programs.set n (k r), x.lookups⟩ :=
  ⟨only_set hr.asks turn r, hr.sound⟩

theorem Ready.put {x : Sharing α} (hr : Ready source asOf x) {visaTypeId key : String}
    (keyed : LookupCache.key? visaTypeId asOf = some key) {l : SharedLookup}
    (hl : l = .underway visaTypeId asOf ∨ l = .settled (source.lookup visaTypeId asOf)) :
    Ready source asOf ⟨x.programs, Entries.put x.lookups key l⟩ :=
  ⟨hr.asks, hr.sound.put keyed hl⟩

theorem Ready.found {x : Sharing α} (hr : Ready source asOf x) {visaTypeId key : String}
    (keyed : LookupCache.key? visaTypeId asOf = some key) {r : Except Raised RuleVersion}
    (found : Entries.get? x.lookups key = some (.settled r)) :
    r = source.lookupDated visaTypeId asOf := by
  obtain ⟨visaTypeId', keyed', same | same⟩ := hr.sound key _ found
  · cases same
  · cases same
    obtain rfl := LookupCache.key?_injective keyed' keyed
    rw [VersionSource.lookupDated, keyed]

/-- Of programs that ask on one date each gets what a lookup of its own would find. -/
theorem Steps.looked_up {x y : Sharing α} {h : SharedHistory Call.interface}
    (hs : Steps source x h y) (ready : Ready source asOf x) :
    Ready source asOf y ∧ ∀ e ∈ h, ∀ visaTypeId d r, e.2 = ⟨.ruleVersion visaTypeId d, r⟩ →
      r = source.lookupDated visaTypeId d := by
  induction hs with
  | here x => exact ⟨ready, by simp⟩
  | begin turn keyed fresh rest ih =>
    obtain rfl := ready.date turn
    exact ih (ready.put keyed (.inl rfl))
  | settle found rest ih =>
    obtain ⟨visaTypeId', keyed, same | same⟩ := ready.sound _ _ found
    · cases same
      exact ih (ready.put keyed (.inr rfl))
    · cases same
  | @resume x y h n visaTypeId key d k r turn keyed found rest ih =>
    obtain rfl := ready.date turn
    obtain ⟨last, others⟩ := ih (ready.next turn r)
    refine ⟨last, List.forall_mem_cons.2 ⟨?_, others⟩⟩
    rintro _ _ _ ⟨⟩
    exact ready.found keyed found
  | @undated x y h n visaTypeId d k turn unkeyed rest ih =>
    obtain ⟨last, others⟩ := ih (ready.next turn _)
    refine ⟨last, List.forall_mem_cons.2 ⟨?_, others⟩⟩
    rintro _ _ _ ⟨⟩
    rw [VersionSource.lookupDated, unkeyed]
  | @other x y h n c k turn hc r rest ih =>
    obtain ⟨last, others⟩ := ih (ready.next turn r)
    refine ⟨last, List.forall_mem_cons.2 ⟨?_, others⟩⟩
    rintro _ _ _ ⟨⟩
    cases hc

theorem Steps.trans {x y z : Sharing α} {h h' : SharedHistory Call.interface}
    (hs : Steps source x h y) (hs' : Steps source y h' z) : Steps source x (h ++ h') z := by
  induction hs with
  | here x => exact hs'
  | begin turn keyed fresh _ ih => exact .begin turn keyed fresh (ih hs')
  | settle found _ ih => exact .settle found (ih hs')
  | resume turn keyed found _ ih => exact .resume turn keyed found (ih hs')
  | undated turn unkeyed _ ih => exact .undated turn unkeyed (ih hs')
  | other turn hc r _ ih => exact .other turn hc r (ih hs')

theorem Ready.look {x : Sharing α} {n : Nat} {visaTypeId : String}
    {k : Except Raised RuleVersion → Engine α} (ready : Ready source asOf x)
    (turn : x.programs[n]? = some (.call (.ruleVersion visaTypeId asOf) k)) :
    ∃ lookups, Ready source asOf
        ⟨x.programs.set n (k (source.lookupDated visaTypeId asOf)), lookups⟩ ∧
      Steps source x [(n, ⟨.ruleVersion visaTypeId asOf, source.lookupDated visaTypeId asOf⟩)]
        ⟨x.programs.set n (k (source.lookupDated visaTypeId asOf)), lookups⟩ := by
  cases keyed : LookupCache.key? visaTypeId asOf with
  | none =>
    have lost : source.lookupDated visaTypeId asOf = .error (.failure .invalidTime) := by
      rw [VersionSource.lookupDated, keyed]
    rw [lost]
    exact ⟨x.lookups, ready.next turn _, .undated turn keyed (.here _)⟩
  | some key =>
    have looked : source.lookupDated visaTypeId asOf = source.lookup visaTypeId asOf := by
      rw [VersionSource.lookupDated, keyed]
    rw [looked]
    have self (l : SharedLookup) : Entries.get? (Entries.put x.lookups key l) key = some l :=
      Entries.get?_put_self ..
    cases found : Entries.get? x.lookups key with
    | none =>
      have begun := ready.put keyed (.inl rfl)
      have settled := begun.put keyed (.inr rfl)
      refine ⟨_, settled.next turn _, .begin turn keyed found ?_⟩
      exact .settle (self _) (.resume turn keyed (Entries.get?_put_self ..) (.here _))
    | some l =>
      obtain ⟨visaTypeId', keyed', same⟩ := ready.sound _ _ found
      obtain rfl := LookupCache.key?_injective keyed' keyed
      rcases same with rfl | rfl
      · have settled := ready.put keyed (.inr rfl)
        refine ⟨_, settled.next turn _, .settle found ?_⟩
        exact .resume turn keyed (self _) (.here _)
      · exact ⟨x.lookups, ready.next turn _, .resume turn keyed found (.here _)⟩

theorem Steps.of_reaches {p q : Engine α} {h : History Call.interface} (hr : Reaches p h q)
    (found : ∀ visaTypeId d r, ⟨.ruleVersion visaTypeId d, r⟩ ∈ h →
      r = source.lookupDated visaTypeId d)
    {x : Sharing α} (ready : Ready source asOf x) {n : Nat} (hp : x.programs[n]? = some p) :
    ∃ lookups, Ready source asOf ⟨x.programs.set n q, lookups⟩ ∧
      Steps source x (h.map (Prod.mk n)) ⟨x.programs.set n q, lookups⟩ := by
  induction hr generalizing x with
  | here p =>
    have same : x.programs.set n p = x.programs := by
      rw [← (List.getElem?_eq_some_iff.1 hp).2, List.set_getElem_self]
    rw [same]
    exact ⟨x.lookups, ready, .here x⟩
  | @step c k r h q hr ih =>
    have bound := (List.getElem?_eq_some_iff.1 hp).1
    have one : ∃ lookups, Ready source asOf ⟨x.programs.set n (k r), lookups⟩ ∧
        Steps source x [(n, ⟨c, r⟩)] ⟨x.programs.set n (k r), lookups⟩ := by
      cases hc : c.isLookup with
      | false => exact ⟨x.lookups, ready.next hp r, .other hp hc r (.here _)⟩
      | true =>
        cases c with
        | ruleVersion visaTypeId d =>
          obtain rfl := ready.date hp
          obtain rfl := found _ _ _ List.mem_cons_self
          exact ready.look hp
        | _ => cases hc
    obtain ⟨lookups, ready, first⟩ := one
    have rest := ih (fun visaTypeId d r hm => found visaTypeId d r (List.mem_cons_of_mem _ hm)) ready
      (List.getElem?_set_self bound)
    rw [List.set_set] at rest
    obtain ⟨lookups, ready, rest⟩ := rest
    exact ⟨lookups, ready, first.trans rest⟩

/-- Programs that share lookups never wait for each other for ever: they can all be run to their
ends, one after the other. -/
theorem Ready.completes {x : Sharing α} (ready : Ready source asOf x)
    (answer : (c : Call) → Call.Reply c)
    (looked : ∀ visaTypeId d, answer (.ruleVersion visaTypeId d) = source.lookupDated visaTypeId d) :
    ∃ h lookups,
      Steps source x h ⟨(x.programs.map fun p => (trace answer p).2).map done, lookups⟩ ∧
        ∀ e ∈ h, e.2 = ⟨e.2.call, answer e.2.call⟩ := by
  obtain ⟨programs, lookups⟩ := x
  have completed (ends : List α) (ps : List (Engine α)) (lookups : List (String × SharedLookup))
      (ready : Ready source asOf ⟨ends.map done ++ ps, lookups⟩) :
      ∃ h lookups', Steps source ⟨ends.map done ++ ps, lookups⟩ h
          ⟨(ends ++ ps.map fun p => (trace answer p).2).map done, lookups'⟩ ∧
        ∀ e ∈ h, e.2 = ⟨e.2.call, answer e.2.call⟩ := by
    induction ps generalizing ends lookups with
    | nil =>
      rw [List.map_nil, List.append_nil, List.append_nil]
      exact ⟨[], lookups, .here _, by simp⟩
    | cons p ps ih =>
      have ran := returns_trace answer p
      have found (visaTypeId : String) (d : Instant) (r : Except Raised RuleVersion)
          (hm : ⟨.ruleVersion visaTypeId d, r⟩ ∈ (trace answer p).1) :
          r = source.lookupDated visaTypeId d := by
        have answered := eq_of_mem_trace hm
        injection answered with _ same
        exact same.trans (looked visaTypeId d)
      obtain ⟨lookups', ready', first⟩ :=
        Steps.of_reaches ran found ready (n := ends.length) (by simp)
      have ended (a : α) : (ends.map done ++ p :: ps).set ends.length (done a) =
          (ends ++ [a]).map done ++ ps := by simp
      rw [ended] at ready' first
      obtain ⟨h, last, rest, answered⟩ := ih _ lookups' ready'
      rw [List.append_assoc, List.singleton_append] at rest
      refine ⟨_, last, first.trans rest, List.forall_mem_append.2 ⟨fun e he => ?_, answered⟩⟩
      obtain ⟨y, hy, rfl⟩ := List.mem_map.1 he
      exact eq_of_mem_trace hy
  simpa using completed [] programs lookups (by simpa using ready)

end Sharing

namespace Check

variable {s : EngineSettings} {r : CheckRequest} {facts : Facts} {asOf : Instant}

theorem asksFor_of_remote {visaTypeId : String} {c : Call} (hc : c.isRemote = true) :
    Sharing.asksFor visaTypeId asOf c = true := by
  cases c <;> first | rfl | cases hc

theorem only_persist {kind : Call → Bool} {entity : String} {write : Engine (Except Raised Unit)}
    (hw : write.Only kind) : (persist entity write).run.Only kind := by
  refine hw.bind fun x => ?_
  cases x with
  | ok u => exact only_done _ _
  | error e => exact only_done _ _

theorem only_stamped {kind : Call → Bool} (hi : kind .newId = true) (ht : kind .now = true)
    {α : Type} {f : String → Instant → Step α} (hf : ∀ id time, (f id time).run.Only kind) :
    (lift Engine.newId >>= fun id => lift Engine.now >>= f id).run.Only kind := by
  have lifted {α : Type} {p : Engine α} (hp : p.Only kind) : (lift p).run.Only kind :=
    hp.bind fun _ => only_done _ _
  exact Attempt.only_bind (lifted (only_perform.2 hi)) fun id =>
    Attempt.only_bind (lifted (only_perform.2 ht)) fun time => hf id time

theorem only_store (d : Decision) : (store s r d).run.Only (Sharing.asksFor r.visaTypeId asOf) := by
  refine Attempt.only_bind ?_ fun x => only_stamped rfl rfl fun id time =>
    Attempt.only_bind (only_persist (only_perform.2 rfl)) fun _ => only_done _ _
  unfold storeAnswer
  cases d.ai.completed with
  | none => exact only_done _ _
  | some c =>
    simp only [storeReasoning, LawfulMonad.bind_assoc]
    refine only_stamped rfl rfl fun id time => ?_
    refine Attempt.only_bind (only_persist (only_perform.2 rfl)) fun _ => ?_
    split
    · simp only [LawfulMonad.bind_assoc]
      exact Attempt.only_bind (only_persist (only_perform.2 rfl)) fun _ => only_done _ _
    · exact only_done _ _

theorem only_overFacts (hd : r.evaluationDate = some asOf) :
    (overFacts s r facts).Only (Sharing.asksFor r.visaTypeId asOf) := by
  have dated : evaluationDate r = done asOf := by
    rw [evaluationDate, hd]
    rfl
  have decided : (decision s r facts asOf).run.Only (Sharing.asksFor r.visaTypeId asOf) := by
    refine Attempt.only_bind (only_perform.2 (by simp [Sharing.asksFor])) fun v => ?_
    exact Attempt.only_bind ((only_askModel s r facts _).mono fun c => asksFor_of_remote)
      fun ai => only_done _ _
  have concluded (d : Decision) (x : Stored) :
      (conclude s r d x).run.Only (Sharing.asksFor r.visaTypeId asOf) := by
    refine (only_conclude d x).mono fun c hc => ?_
    cases c <;> first | rfl | cases hc
  have all : (steps s r facts asOf).run.Only (Sharing.asksFor r.visaTypeId asOf) := by
    rw [steps_eq]
    exact Attempt.only_bind decided fun d => Attempt.only_bind (only_store d) fun x => concluded d x
  unfold overFacts
  rw [dated]
  refine all.bind fun x => ?_
  cases x with
  | ok y => exact only_done _ _
  | error e => exact (only_perform.2 rfl).bind fun _ => only_done _ _

end Check

end VisaEligibility
