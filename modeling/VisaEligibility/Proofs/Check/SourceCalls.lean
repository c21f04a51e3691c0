import VisaEligibility.Proofs.Check.LookupCalls
/-!
What programs that share lookups ask the source of the rules. The source answers when it will and
with what it then has. On one date it is asked at most once for a visa type, and all that wait for
the lookup are given the version chosen from its one answer.
-/
set_option autoImplicit false

namespace VisaEligibility

open Program

namespace LookupCall

abbrev Answer := Except Raised (List RuleVersion)

def choice (c : LookupCall) (listed : Answer) : Except Raised RuleVersion :=
  listed.bind (RuleVersion.choose c.visaTypeId c.asOf)

end LookupCall

namespace Sharing

/-- What happens where programs share lookups: the source is asked or answers, or a program is given
the reply to a call. -/
inductive Event where
  | asked (c : LookupCall)
  | answered (c : LookupCall) (listed : LookupCall.Answer)
  | exchanged (n : Nat) (e : Exchange Call.interface)

namespace Event

def ask? : Event → Option LookupCall
  | asked c => some c
  | _ => none

def answerTo? (c : LookupCall) : Event → Option LookupCall.Answer
  | answered d listed => if d = c then some listed else none
  | _ => none

def exchange? : Event → Option (Nat × Exchange Call.interface)
  | exchanged n e => some (n, e)
  | _ => none

end Event

def asks (past : List Event) : List LookupCall := past.filterMap Event.ask?

def answersTo (c : LookupCall) (past : List Event) : List LookupCall.Answer :=
  past.filterMap (Event.answerTo? c)

def exchanges (past : List Event) : SharedHistory Call.interface := past.filterMap Event.exchange?

theorem asks_append (past later : List Event) : asks (past ++ later) = asks past ++ asks later :=
  List.filterMap_append

theorem answersTo_append (c : LookupCall) (past later : List Event) :
    answersTo c (past ++ later) = answersTo c past ++ answersTo c later :=
  List.filterMap_append

theorem exchanges_append (past later : List Event) :
    exchanges (past ++ later) = exchanges past ++ exchanges later :=
  List.filterMap_append

variable {α : Type} {past : List Event} {c : LookupCall} {visaTypeIds : List String}
  {asOf : Instant} {x y z : Sharing α}

/-- A program whose lookup is not there has the source asked. The answer settles the lookup, and
then the programs that wait for it go on. -/
inductive Move (x : Sharing α) : Event → Sharing α → Prop where
  | ask {n : Nat} {visaTypeId key : String} {asOf : Instant}
      {k : Except Raised RuleVersion → Engine α}
      (turn : x.programs[n]? = some (.call (.ruleVersion visaTypeId asOf) k))
      (keyed : LookupCache.key? visaTypeId asOf = some key)
      (fresh : Entries.get? x.lookups key = none) :
      Move x (.asked ⟨visaTypeId, asOf⟩)
        ⟨x.programs, Entries.put x.lookups key (.underway visaTypeId asOf)⟩
  | answer {visaTypeId key : String} {asOf : Instant}
      (found : Entries.get? x.lookups key = some (.underway visaTypeId asOf))
      (listed : LookupCall.Answer) :
      Move x (.answered ⟨visaTypeId, asOf⟩ listed)
        ⟨x.programs,
          Entries.put x.lookups key (.settled (LookupCall.choice ⟨visaTypeId, asOf⟩ listed))⟩
  | resume {n : Nat} {visaTypeId key : String} {asOf : Instant}
      {k : Except Raised RuleVersion → Engine α} {r : Except Raised RuleVersion}
      (turn : x.programs[n]? = some (.call (.ruleVersion visaTypeId asOf) k))
      (keyed : LookupCache.key? visaTypeId asOf = some key)
      (found : Entries.get? x.lookups key = some (.settled r)) :
      Move x (.exchanged n ⟨.ruleVersion visaTypeId asOf, r⟩) ⟨x.programs.set n (k r), x.lookups⟩
  | undated {n : Nat} {visaTypeId : String} {asOf : Instant}
      {k : Except Raised RuleVersion → Engine α}
      (turn : x.programs[n]? = some (.call (.ruleVersion visaTypeId asOf) k))
      (unkeyed : LookupCache.key? visaTypeId asOf = none) :
      Move x (.exchanged n ⟨.ruleVersion visaTypeId asOf, .error (.failure .invalidTime)⟩)
        ⟨x.programs.set n (k (.error (.failure .invalidTime))), x.lookups⟩
  | other {n : Nat} {c : Call} {k : Call.Reply c → Engine α}
      (turn : x.programs[n]? = some (.call c k)) (hc : c.isLookup = false) (r : Call.Reply c) :
      Move x (.exchanged n ⟨c, r⟩) ⟨x.programs.set n (k r), x.lookups⟩

/-- Moves one after another, with all that has happened. -/
inductive Moves (x : Sharing α) : List Event → Sharing α → Prop where
  | here : Moves x [] x
  | next {past : List Event} {e : Event} {y z : Sharing α} (run : Moves x past y)
      (move : Move y e z) : Moves x (past ++ [e]) z

theorem Moves.single {e : Event} (move : Move x e y) : Moves x [e] y := .next .here move

theorem Moves.trans {later : List Event} (run : Moves x past y) (rest : Moves y later z) :
    Moves x (past ++ later) z := by
  induction rest with
  | here => rwa [List.append_nil]
  | next _ move ih =>
    rw [← List.append_assoc]
    exact ih.next move

theorem Move.interleaves {e : Event} (move : Move x e y) :
    Interleaves x.programs (exchanges [e]) y.programs := by
  cases move with
  | ask => exact .here _
  | answer => exact .here _
  | resume turn _ _ => exact .step turn _ (.here _)
  | undated turn _ => exact .step turn _ (.here _)
  | other turn _ r => exact .step turn r (.here _)

theorem Moves.interleaves (run : Moves x past y) :
    Interleaves x.programs (exchanges past) y.programs := by
  induction run with
  | here => exact .here _
  | next _ move ih =>
    rw [exchanges_append]
    exact ih.trans move.interleaves

def AsksNoMore (x : Sharing α) : Prop :=
  ∀ c y, ¬ Move x (.asked c) y

theorem asksNoMore_of_ended {outcomes : List α}
    (ended : x.programs = outcomes.map done) : AsksNoMore x := by
  intro c y move
  cases move with
  | ask turn keyed fresh =>
    rw [ended, List.getElem?_map] at turn
    obtain ⟨a, -, same⟩ := Option.map_eq_some_iff.1 turn
    cases same

/-- What happened, with what a source answers by its arguments. -/
structure Faithful (source : VersionSource) (h : SharedHistory Call.interface)
    (past : List Event) : Prop where
  exchanges : exchanges past = h
  answers : ∀ c, ∀ listed ∈ answersTo c past, listed = source c.visaTypeId c.asOf

theorem Faithful.cons {source : VersionSource} {h h' : SharedHistory Call.interface}
    (hp : Faithful source h past) {e : Event} (exchange : e.exchange?.toList ++ h = h')
    (answer : ∀ c listed, e.answerTo? c = some listed →
      listed = source c.visaTypeId c.asOf) : Faithful source h' (e :: past) := by
  refine ⟨?_, fun c listed hl => ?_⟩
  · rw [← exchange, ← hp.exchanges]
    cases he : e.exchange? <;> simp [Sharing.exchanges, he]
  · obtain ⟨e', he, answered⟩ := List.mem_filterMap.1 hl
    rcases List.mem_cons.1 he with rfl | he
    · exact answer c listed answered
    · exact hp.answers c listed (List.mem_filterMap.2 ⟨e', he, answered⟩)

theorem Move.before {source : VersionSource} {h h' : SharedHistory Call.interface} {e : Event}
    (move : Move x e y) (rest : ∃ past, Moves y past z ∧ Faithful source h past)
    (exchange : e.exchange?.toList ++ h = h')
    (answer : ∀ c listed, e.answerTo? c = some listed →
      listed = source c.visaTypeId c.asOf) : ∃ past, Moves x past z ∧ Faithful source h' past := by
  obtain ⟨past, run, faithful⟩ := rest
  exact ⟨e :: past, (Moves.single move).trans run, faithful.cons exchange answer⟩

theorem Steps.moves {source : VersionSource} {h : SharedHistory Call.interface}
    (hs : Steps source x h y) : ∃ past, Moves x past y ∧ Faithful source h past := by
  induction hs with
  | here x => exact ⟨[], .here, rfl, fun c listed hl => by cases hl⟩
  | begin turn keyed fresh _ ih =>
    exact (Move.ask turn keyed fresh).before ih rfl fun c listed hl => by cases hl
  | @settle x y h visaTypeId key asOf found _ ih =>
    refine (Move.answer found (source visaTypeId asOf)).before ih rfl fun c listed hl => ?_
    obtain ⟨rfl, same⟩ := Option.ite_none_right_eq_some.1 hl
    exact (Option.some.inj same).symm
  | resume turn keyed found _ ih =>
    exact (Move.resume turn keyed found).before ih rfl fun c listed hl => by cases hl
  | undated turn unkeyed _ ih =>
    exact (Move.undated turn unkeyed).before ih rfl fun c listed hl => by cases hl
  | other turn hc r _ ih =>
    exact (Move.other turn hc r).before ih rfl fun c listed hl => by cases hl

/-- How a shared lookup stands after what has happened. -/
inductive Standing (past : List Event) (c : LookupCall) : Option SharedLookup → Prop where
  | fresh (unasked : (asks past).count c = 0) (unanswered : answersTo c past = []) :
      Standing past c none
  | underway (asked : (asks past).count c = 1) (unanswered : answersTo c past = []) :
      Standing past c (some (.underway c.visaTypeId c.asOf))
  | settled {listed : LookupCall.Answer} (asked : (asks past).count c = 1)
      (answered : answersTo c past = [listed]) :
      Standing past c (some (.settled (c.choice listed)))

namespace Standing

variable {l : Option SharedLookup}

theorem count_le_one (hs : Standing past c l) : (asks past).count c ≤ 1 := by
  cases hs <;> omega

theorem count_of_some {l : SharedLookup} (hs : Standing past c (some l)) :
    (asks past).count c = 1 := by
  cases hs <;> assumption

theorem answersTo_eq (hs : Standing past c l) {listed : LookupCall.Answer}
    (answered : listed ∈ answersTo c past) :
    (asks past).count c = 1 ∧ answersTo c past = [listed] := by
  cases hs with
  | fresh _ unanswered => simp [unanswered] at answered
  | underway _ unanswered => simp [unanswered] at answered
  | settled asked all =>
    rw [all, List.mem_singleton] at answered
    rw [all, answered]
    exact ⟨asked, rfl⟩

theorem other (hs : Standing past c l) {e : Event} (unasked : e.ask? ≠ some c)
    (unanswered : e.answerTo? c = none) : Standing (past ++ [e]) c l := by
  have count : (asks (past ++ [e])).count c = (asks past).count c := by
    rw [asks_append, List.count_append, Nat.add_eq_left, List.count_eq_zero]
    simpa [asks] using unasked
  have answers : answersTo c (past ++ [e]) = answersTo c past := by
    have none : answersTo c [e] = [] := by simp [answersTo, unanswered]
    rw [answersTo_append, none, List.append_nil]
  cases hs with
  | fresh h h' => exact .fresh (count.trans h) (answers.trans h')
  | underway h h' => exact .underway (count.trans h) (answers.trans h')
  | settled h h' => exact .settled (count.trans h) (answers.trans h')

theorem ask (hs : Standing past c none) :
    Standing (past ++ [.asked c]) c (some (.underway c.visaTypeId c.asOf)) := by
  cases hs with
  | fresh unasked unanswered =>
    refine .underway ?_ ?_
    · rw [asks_append, List.count_append, unasked]
      simp [asks, Event.ask?]
    · rw [answersTo_append, unanswered]
      rfl

theorem answer {visaTypeId : String} {asOf : Instant}
    (hs : Standing past c (some (.underway visaTypeId asOf))) (listed : LookupCall.Answer) :
    c = ⟨visaTypeId, asOf⟩ ∧
      Standing (past ++ [.answered c listed]) c (some (.settled (c.choice listed))) := by
  cases hs with
  | underway asked unanswered =>
    refine ⟨rfl, .settled ?_ ?_⟩
    · rw [asks_append, List.count_append, asked]
      rfl
    · rw [answersTo_append, unanswered]
      simp [answersTo, Event.answerTo?]

end Standing

def asksAmong (visaTypeIds : List String) (asOf : Instant) : Call → Bool
  | .ruleVersion v d => visaTypeIds.contains v && d = asOf
  | _ => true

def Backed (past : List Event) (asOf : Instant) (visaTypeId : String) (d : Instant)
    (r : Except Raised RuleVersion) : Prop :=
  d = asOf ∧ ∃ listed ∈ answersTo ⟨visaTypeId, asOf⟩ past,
    r = LookupCall.choice ⟨visaTypeId, asOf⟩ listed

theorem Backed.append {visaTypeId : String} {d : Instant} {r : Except Raised RuleVersion}
    (hb : Backed past asOf visaTypeId d r) (later : List Event) :
    Backed (past ++ later) asOf visaTypeId d r := by
  obtain ⟨same, listed, answered, chosen⟩ := hb
  refine ⟨same, listed, ?_, chosen⟩
  rw [answersTo_append]
  exact List.mem_append_left _ answered

/-- Programs that ask for listed visa types on one date, with what has happened: the lookups stand
as this has left them, and what the programs were given was chosen from answers of the source. -/
structure Accounted (visaTypeIds : List String) (asOf : Instant) (past : List Event)
    (x : Sharing α) : Prop where
  asking : ∀ p ∈ x.programs, p.Only (asksAmong visaTypeIds asOf)
  standing : ∀ visaTypeId key, LookupCache.key? visaTypeId asOf = some key →
    Standing past ⟨visaTypeId, asOf⟩ (Entries.get? x.lookups key)
  keyed : ∀ key l, Entries.get? x.lookups key = some l →
    ∃ visaTypeId, LookupCache.key? visaTypeId asOf = some key
  asked : ∀ c ∈ asks past, c.visaTypeId ∈ visaTypeIds ∧ c.asOf = asOf
  given : ∀ n visaTypeId d r, (n, ⟨.ruleVersion visaTypeId d, r⟩) ∈ exchanges past →
    Backed past asOf visaTypeId d r

namespace Accounted

theorem start {ps : List (Engine α)} (asking : ∀ p ∈ ps, p.Only (asksAmong visaTypeIds asOf)) :
    Accounted visaTypeIds asOf [] ⟨ps, []⟩ where
  asking := asking
  standing _ _ _ := .fresh rfl rfl
  keyed _ _ hl := by cases hl
  asked _ hc := by cases hc
  given _ _ _ _ he := by cases he

theorem of_turn (ha : Accounted visaTypeIds asOf past x) {n : Nat} {visaTypeId : String}
    {d : Instant} {k : Except Raised RuleVersion → Engine α}
    (turn : x.programs[n]? = some (.call (.ruleVersion visaTypeId d) k)) :
    visaTypeId ∈ visaTypeIds ∧ d = asOf := by
  have asking := (ha.asking _ (List.mem_of_getElem? turn)).1
  simpa [asksAmong] using asking

theorem put (ha : Accounted visaTypeIds asOf past x) {visaTypeId key : String}
    (keyed : LookupCache.key? visaTypeId asOf = some key) {l : SharedLookup} {e : Event}
    (stands : Standing (past ++ [e]) ⟨visaTypeId, asOf⟩ (some l))
    (mine : ∀ c, e.ask? = some c ∨ e.answerTo? c ≠ none → c = ⟨visaTypeId, asOf⟩)
    (asked : ∀ c, e.ask? = some c → c.visaTypeId ∈ visaTypeIds)
    (quiet : e.exchange? = none) :
    Accounted visaTypeIds asOf (past ++ [e]) ⟨x.programs, Entries.put x.lookups key l⟩ where
  asking := ha.asking
  standing other key' keyed' := by
    by_cases same : key' = key
    · subst same
      obtain rfl := LookupCache.key?_injective keyed' keyed
      rwa [Entries.get?_put_self]
    · have apart (hc : (⟨other, asOf⟩ : LookupCall) = ⟨visaTypeId, asOf⟩) : False := by
        cases hc
        exact same (Option.some.inj (keyed'.symm.trans keyed))
      rw [Entries.get?_put_of_ne _ _ same]
      refine (ha.standing other key' keyed').other (fun hc => apart (mine _ (.inl hc))) ?_
      by_contra answered
      exact apart (mine _ (.inr answered))
  keyed key' l' hl' := by
    by_cases same : key' = key
    · exact ⟨visaTypeId, same ▸ keyed⟩
    · rw [Entries.get?_put_of_ne _ _ same] at hl'
      exact ha.keyed key' l' hl'
  asked c hc := by
    rw [asks_append, List.mem_append] at hc
    rcases hc with hc | hc
    · exact ha.asked c hc
    · have hc : e.ask? = some c := by simpa [asks] using hc
      exact ⟨asked c hc, congrArg LookupCall.asOf (mine c (.inl hc))⟩
  given n other d r he := by
    have none : exchanges [e] = [] := by simp [exchanges, quiet]
    rw [exchanges_append, none, List.append_nil] at he
    exact (ha.given n other d r he).append [e]

theorem exchange (ha : Accounted visaTypeIds asOf past x) {n : Nat} {c : Call}
    {k : Call.Reply c → Engine α} (turn : x.programs[n]? = some (.call c k)) (r : Call.Reply c)
    (backed : ∀ visaTypeId d r',
      (⟨c, r⟩ : Exchange Call.interface) = ⟨.ruleVersion visaTypeId d, r'⟩ →
        Backed past asOf visaTypeId d r') :
    Accounted visaTypeIds asOf (past ++ [.exchanged n ⟨c, r⟩])
      ⟨x.programs.set n (k r), x.lookups⟩ where
  asking := only_set ha.asking turn r
  standing other key keyed := (ha.standing other key keyed).other (by simp [Event.ask?]) rfl
  keyed := ha.keyed
  asked d hd := by
    rw [asks_append] at hd
    exact ha.asked d (by simpa [asks, Event.ask?] using hd)
  given m other d r' he := by
    rw [exchanges_append, List.mem_append] at he
    rcases he with he | he
    · exact (ha.given m other d r' he).append _
    · have same : (⟨c, r⟩ : Exchange Call.interface) = ⟨.ruleVersion other d, r'⟩ :=
        (Prod.mk.inj (List.mem_singleton.1 he)).2.symm
      exact (backed other d r' same).append _

theorem move (ha : Accounted visaTypeIds asOf past x) (valid : asOf.isValid = true) {e : Event}
    (move : Move x e y) : Accounted visaTypeIds asOf (past ++ [e]) y := by
  cases move with
  | ask turn keyed fresh =>
    obtain ⟨among, rfl⟩ := ha.of_turn turn
    have stands := ha.standing _ _ keyed
    rw [fresh] at stands
    refine ha.put keyed stands.ask ?_ ?_ rfl
    · rintro c (hc | hc)
      · exact (Option.some.inj hc).symm
      · exact absurd rfl hc
    · rintro c hc
      cases hc
      exact among
  | @answer visaTypeId key d found listed =>
    obtain ⟨own, keyed⟩ := ha.keyed _ _ found
    have stands := ha.standing _ _ keyed
    rw [found] at stands
    obtain ⟨same, settled⟩ := stands.answer listed
    cases same
    refine ha.put keyed settled ?_ ?_ rfl
    · rintro c (hc | hc)
      · cases hc
      · by_contra other
        exact hc (if_neg fun same => other same.symm)
    · rintro c hc
      cases hc
  | @resume n visaTypeId key d k r turn keyed found =>
    obtain ⟨-, rfl⟩ := ha.of_turn turn
    have stands := ha.standing _ _ keyed
    rw [found] at stands
    refine ha.exchange turn r ?_
    rintro _ _ _ ⟨⟩
    cases stands with
    | settled _ answered => exact ⟨rfl, _, by rw [answered]; exact List.mem_cons_self, rfl⟩
  | undated turn unkeyed =>
    obtain ⟨-, rfl⟩ := ha.of_turn turn
    obtain ⟨key, keyed⟩ := LookupCall.exists_key? (c := ⟨_, _⟩) valid
    cases unkeyed.symm.trans keyed
  | @other n c k turn hc r =>
    refine ha.exchange turn r ?_
    rintro _ _ _ ⟨⟩
    cases hc

theorem moves (ha : Accounted visaTypeIds asOf past x) (valid : asOf.isValid = true)
    {later : List Event} (run : Moves x later y) :
    Accounted visaTypeIds asOf (past ++ later) y := by
  induction run with
  | here => rwa [List.append_nil]
  | next _ move ih =>
    rw [← List.append_assoc]
    exact ih.move valid move

theorem exists_standing (ha : Accounted visaTypeIds asOf past x) (valid : asOf.isValid = true)
    (visaTypeId : String) : ∃ l, Standing past ⟨visaTypeId, asOf⟩ l := by
  obtain ⟨key, keyed⟩ := LookupCall.exists_key? (c := ⟨visaTypeId, asOf⟩) valid
  exact ⟨_, ha.standing _ _ keyed⟩

/-- The source is not asked twice for the same. -/
theorem nodup_asks (ha : Accounted visaTypeIds asOf past x) (valid : asOf.isValid = true) :
    (asks past).Nodup := by
  refine List.nodup_iff_count_le_one.2 fun c => ?_
  by_cases hc : c ∈ asks past
  · obtain ⟨visaTypeId, d⟩ := c
    obtain ⟨-, rfl⟩ := ha.asked _ hc
    obtain ⟨l, stands⟩ := ha.exists_standing valid visaTypeId
    exact stands.count_le_one
  · rw [List.count_eq_zero.2 hc]
    exact Nat.zero_le 1

theorem replied (ha : Accounted visaTypeIds asOf past x) (valid : asOf.isValid = true) {n : Nat}
    {visaTypeId : String} {d : Instant} {r : Except Raised RuleVersion}
    (he : (n, ⟨.ruleVersion visaTypeId d, r⟩) ∈ exchanges past) :
    d = asOf ∧ (asks past).count ⟨visaTypeId, asOf⟩ = 1 ∧
      ∃ listed, answersTo ⟨visaTypeId, asOf⟩ past = [listed] ∧
        r = LookupCall.choice ⟨visaTypeId, asOf⟩ listed := by
  obtain ⟨same, listed, answered, chosen⟩ := ha.given _ _ _ _ he
  obtain ⟨l, stands⟩ := ha.exists_standing valid visaTypeId
  obtain ⟨asked, all⟩ := stands.answersTo_eq answered
  exact ⟨same, asked, listed, all, chosen⟩

def sourceOf (past : List Event) : VersionSource := fun visaTypeId asOf =>
  (answersTo ⟨visaTypeId, asOf⟩ past).headD (.ok [])

theorem ready (ha : Accounted visaTypeIds asOf past x) : Ready (sourceOf past) asOf x where
  asks p hp := (ha.asking p hp).mono fun c hc => by
    cases c with
    | ruleVersion v d => exact (Bool.and_eq_true_iff.1 hc).2
    | _ => rfl
  sound key l hl := by
    obtain ⟨visaTypeId, keyed⟩ := ha.keyed key l hl
    have stands := ha.standing _ _ keyed
    rw [hl] at stands
    refine ⟨visaTypeId, keyed, ?_⟩
    cases stands with
    | underway => exact .inl rfl
    | @settled listed _ answered =>
      have listedOf : sourceOf past visaTypeId asOf = listed := by rw [sourceOf, answered]; rfl
      refine .inr (congrArg _ ?_)
      rw [VersionSource.lookup, listedOf]
      rfl

theorem completes (ha : Accounted visaTypeIds asOf past x) :
    ∃ later y, Moves x later y ∧ ∃ outcomes : List α, y.programs = outcomes.map done := by
  let answer : (c : Call) → Call.Reply c
    | .ruleVersion visaTypeId d => (sourceOf past).lookupDated visaTypeId d
    | c => Classical.choice (inferInstanceAs (Nonempty (Call.interface.Reply c)))
  obtain ⟨h, lookups, steps, -⟩ := ha.ready.completes answer fun _ _ => rfl
  obtain ⟨later, run, -⟩ := steps.moves
  exact ⟨later, _, run, _, rfl⟩

end Accounted
end Sharing
end VisaEligibility
