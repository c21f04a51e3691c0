import Mathlib.Data.List.Infix
import VisaEligibility.Clock.Shutdown
/-!
What a shutdown reaches. Operations run one after the other, each from the end of the one before, as
long as they end in time for the limit of the whole. If all do, the outcome lists those that have
failed or exceeded their own limit; otherwise the first one that does not is the last to be started.
-/
set_option autoImplicit false

namespace VisaEligibility.Clock

namespace Cleanup

def SettlesBy (o : Cleanup) (start deadline : Time) : Prop :=
  match o.settling with
  | .atOnce => True
  | .after t => (start + t).le deadline = true
  | .never => False

/-- How an operation that is started at a time ends: it settles within its own limit, if it has
one, or it fails at the limit. -/
inductive Ends (o : Cleanup) (start : Time) : Time → Bool → Prop where
  | atOnce (settling : o.settling = .atOnce) : Ends o start start o.succeeds
  | settled {t : Time} (settling : o.settling = .after t)
      (inTime : ∀ l, o.limit = some l → o.SettlesBy start (start + l)) :
      Ends o start (start + t) o.succeeds
  | timedOut {l : Time} (limited : o.limit = some l) (late : ¬o.SettlesBy start (start + l)) :
      Ends o start (start + l) false

/-- An end counts for the limit of the whole. At the limit itself only the operation started before
the limit began to count, the first one, still counts. -/
def Counts (o : Cleanup) (limit : Time) (first : Bool) (t : Time) : Prop :=
  o.settling = .atOnce ∨ t.lt limit = true ∨ first = true ∧ t.same limit = true

variable {o : Cleanup} {start t t' : Time} {succeeded succeeded' : Bool}

theorem ending_of_ends (ends : o.Ends start t succeeded) :
    o.ending start = .atOnce succeeded ∧ t = start ∨ o.ending start = .at t succeeded := by
  cases ends with
  | atOnce settling => exact .inl ⟨by simp only [ending, settling], rfl⟩
  | settled settling inTime =>
    right
    cases limited : o.limit with
    | none => simp only [ending, settling, limited]
    | some l =>
      have due := inTime l limited
      rw [SettlesBy, settling] at due
      simp only [ending, settling, limited]
      rw [if_pos due]
  | @timedOut l limited late =>
    right
    cases settling : o.settling with
    | atOnce => exact absurd trivial (by rwa [SettlesBy, settling] at late)
    | after t' =>
      rw [SettlesBy, settling] at late
      simp only [ending, settling, limited]
      rw [if_neg late]
    | never => simp only [ending, settling, limited]

theorem ends_of_ending (computed : o.ending start ≠ .never) :
    (o.settling = .atOnce ∧ o.ending start = .atOnce o.succeeds ∧ o.Ends start start o.succeeds) ∨
      o.settling ≠ .atOnce ∧
        ∃ t succeeded, o.ending start = .at t succeeded ∧ o.Ends start t succeeded := by
  cases settling : o.settling with
  | atOnce => exact .inl ⟨rfl, by simp only [ending, settling], .atOnce settling⟩
  | after t =>
    refine .inr ⟨by simp, ?_⟩
    cases limited : o.limit with
    | none =>
      refine ⟨start + t, o.succeeds, by simp only [ending, settling, limited], .settled settling ?_⟩
      intro l set
      cases limited.symm.trans set
    | some l =>
      by_cases due : (start + t).le (start + l) = true
      · refine ⟨start + t, o.succeeds, ?_, .settled settling fun l' set => ?_⟩
        · simp only [ending, settling, limited]
          rw [if_pos due]
        · cases limited.symm.trans set
          rwa [SettlesBy, settling]
      · refine ⟨start + l, false, ?_, .timedOut limited (by rwa [SettlesBy, settling])⟩
        simp only [ending, settling, limited]
        rw [if_neg due]
  | never =>
    refine .inr ⟨by simp, ?_⟩
    cases limited : o.limit with
    | none => exact absurd (by simp only [ending, settling, limited]) computed
    | some l =>
      exact ⟨start + l, false, by simp only [ending, settling, limited],
        .timedOut limited (by rw [SettlesBy, settling]; exact id)⟩

theorem ends_of_atOnce (computed : o.ending start = .atOnce succeeded) :
    o.settling = .atOnce ∧ o.Ends start start succeeded := by
  have own : o.ending start ≠ .never := by simp [computed]
  rcases ends_of_ending own with ⟨settling, same, ends⟩ | ⟨-, t, s, other, -⟩
  · cases computed.symm.trans same
    exact ⟨settling, ends⟩
  · cases computed.symm.trans other

theorem ends_of_at (computed : o.ending start = .at t succeeded) :
    o.settling ≠ .atOnce ∧ o.Ends start t succeeded := by
  have own : o.ending start ≠ .never := by simp [computed]
  rcases ends_of_ending own with ⟨-, other, -⟩ | ⟨settling, t', s, same, ends⟩
  · cases computed.symm.trans other
  · cases computed.symm.trans same
    exact ⟨settling, ends⟩

theorem Ends.unique (ends : o.Ends start t succeeded) (ends' : o.Ends start t' succeeded') :
    t = t' ∧ succeeded = succeeded' := by
  rcases ending_of_ends ends with ⟨computed, rfl⟩ | computed <;>
    rcases ending_of_ends ends' with ⟨computed', rfl⟩ | computed' <;> simp_all

end Cleanup

structure Stint where
  operation : Cleanup
  started : Time
  ended : Time
  succeeded : Bool

def Stint.start (s : Stint) : String × Time := (s.operation.name, s.started)

/-- The names of the operations that have failed or exceeded their own limit. -/
def failures (stints : List Stint) : List String :=
  (stints.filter fun s => !s.succeeded).map fun s => s.operation.name

namespace ShutdownRun

/-- The course of operations from a time on. Each starts when the one before has ended. One that
does not end in time is left pending, and none is started after it. -/
inductive Course (limit : Time) :
    Bool → Time → List Cleanup → List Stint → Option (Cleanup × Time) → Prop where
  | ended {first : Bool} {time : Time} : Course limit first time [] [] none
  | next {first : Bool} {time t : Time} {o : Cleanup} {os : List Cleanup} {succeeded : Bool}
      {stints : List Stint} {pending : Option (Cleanup × Time)}
      (ends : o.Ends time t succeeded) (inTime : o.Counts limit first t)
      (rest : Course limit false t os stints pending) :
      Course limit first time (o :: os) (⟨o, time, t, succeeded⟩ :: stints) pending
  | overdue {first : Bool} {time : Time} {o : Cleanup} {os : List Cleanup}
      (late : ∀ t succeeded, o.Ends time t succeeded → ¬o.Counts limit first t) :
      Course limit first time (o :: os) [] (some (o, time))

variable {limit time : Time} {first : Bool} {os : List Cleanup} {stints stints' : List Stint}
  {pending pending' : Option (Cleanup × Time)}

theorem Course.unique (course : Course limit first time os stints pending)
    (course' : Course limit first time os stints' pending') :
    stints = stints' ∧ pending = pending' := by
  induction course generalizing stints' pending' with
  | ended =>
    cases course'
    exact ⟨rfl, rfl⟩
  | next ends inTime rest ih =>
    cases course' with
    | next ends' inTime' rest' =>
      obtain ⟨rfl, rfl⟩ := ends.unique ends'
      obtain ⟨rfl, rfl⟩ := ih rest'
      exact ⟨rfl, rfl⟩
    | overdue late => exact absurd inTime (late _ _ ends)
  | overdue late =>
    cases course' with
    | next ends inTime rest => exact absurd inTime (late _ _ ends)
    | overdue => exact ⟨rfl, rfl⟩

/-- Operations are started in their order, from the first one on, and none is left out unless one is
pending. -/
theorem Course.operations (course : Course limit first time os stints pending) :
    ∃ unstarted, os = stints.map Stint.operation ++ (pending.toList.map Prod.fst ++ unstarted) ∧
      (pending = none → unstarted = []) := by
  induction course with
  | ended => exact ⟨[], rfl, fun _ => rfl⟩
  | next ends inTime rest ih =>
    obtain ⟨unstarted, listed, all⟩ := ih
    exact ⟨unstarted, by rw [listed]; rfl, all⟩
  | @overdue first time o os late => exact ⟨os, rfl, nofun⟩

/-- What a run records of a course: the starts, and the failures unless an operation is pending,
for which it waits until the limit. -/
structure Records (limit : Time) (stints : List Stint) (pending : Option (Cleanup × Time))
    (r : ShutdownRun) : Prop where
  started : r.started = stints.map Stint.start ++ pending.toList.map fun p => (p.1.name, p.2)
  failed : r.failed = if pending.isNone then some (failures stints) else none
  time : pending.isSome = true → r.time = limit

theorem Records.next {r : ShutdownRun} (records : Records limit stints pending r)
    (o : Cleanup) (t : Time) (succeeded : Bool) :
    Records limit (⟨o, time, t, succeeded⟩ :: stints) pending
      (starting o.name time (failing o.name succeeded r)) := by
  refine ⟨?_, ?_, fun left => records.time left⟩
  · simp [starting, failing, records.started, Stint.start]
  · cases pending <;> cases succeeded <;> simp [starting, failing, records.failed, failures]

theorem records_overdue (o : Cleanup) :
    Records limit [] (some (o, time)) (starting o.name time ⟨[], none, limit⟩) :=
  ⟨rfl, rfl, fun _ => rfl⟩

theorem exists_course (limit : Time) (first : Bool) (time : Time) (os : List Cleanup) :
    ∃ stints pending, Course limit first time os stints pending ∧
      Records limit stints pending (run limit first time os) := by
  induction os generalizing first time with
  | nil => exact ⟨[], none, .ended, rfl, rfl, nofun⟩
  | cons o os ih =>
    unfold run
    cases computed : o.ending time with
    | atOnce succeeded =>
      obtain ⟨settling, ends⟩ := Cleanup.ends_of_atOnce computed
      obtain ⟨stints, pending, course, records⟩ := ih false time
      exact ⟨_, pending, .next ends (.inl settling) course, records.next o time succeeded⟩
    | «at» t succeeded =>
      obtain ⟨settling, ends⟩ := Cleanup.ends_of_at computed
      dsimp only
      split
      · rename_i inTime
        obtain ⟨stints, pending, course, records⟩ := ih false t
        refine ⟨_, pending, .next ends (.inr ?_) course, records.next o t succeeded⟩
        simpa using inTime
      · rename_i overdue
        refine ⟨[], some (o, time), .overdue fun t' succeeded' ends' counts => overdue ?_,
          records_overdue o⟩
        obtain ⟨rfl, -⟩ := ends.unique ends'
        simpa using counts.resolve_left settling
    | never =>
      refine ⟨[], some (o, time), .overdue fun t succeeded ends => ?_, records_overdue o⟩
      rcases Cleanup.ending_of_ends ends with ⟨settles, -⟩ | settles <;>
        cases computed.symm.trans settles

end ShutdownRun

namespace Shutdown

theorem requests_of_begun {s : Shutdown} (begun : s.begun = true) (together : Bool) (now : Time)
    (n : Nat) : (∀ a ∈ (s.requests together now n).1, a.outcome = .ok [] ∧ a.started = []) ∧
      (s.requests together now n).1.length = n := by
  induction n generalizing now with
  | zero => exact ⟨nofun, rfl⟩
  | succ n ih =>
    have answered : s.shutdown now = (⟨.ok [], [], now - now⟩, s) := if_pos begun
    obtain ⟨idle, length⟩ := ih (if together then now else now + (now - now))
    simp only [requests, answered]
    refine ⟨List.forall_mem_cons.2 ⟨⟨rfl, rfl⟩, idle⟩, ?_⟩
    rw [List.length_cons, length]

theorem exists_course (operations : List Cleanup) (limit : Number) (now : Time) :
    ∃ stints pending, ShutdownRun.Course (duration limit) true 0 operations stints pending ∧
      (shutdown ⟨operations, limit, false⟩ now).1.started =
        stints.map Stint.start ++ pending.toList.map (fun p => (p.1.name, p.2)) ∧
      (pending = none →
        (shutdown ⟨operations, limit, false⟩ now).1.outcome = .ok (failures stints)) ∧
      (pending ≠ none → (shutdown ⟨operations, limit, false⟩ now).1.outcome =
          .error (.failure (.timeout "Graceful shutdown" (some limit))) ∧
        (shutdown ⟨operations, limit, false⟩ now).1.elapsed = duration limit) := by
  obtain ⟨stints, pending, course, records⟩ :=
    ShutdownRun.exists_course (duration limit) true 0 operations
  refine ⟨stints, pending, course, records.started, ?_, fun left => ⟨?_, ?_⟩⟩
  · rintro rfl
    simp [shutdown, ShutdownRun.ofOperations, records.failed]
  · have pendingLeft : pending.isNone = false :=
      Option.isNone_eq_false_iff.2 (Option.isSome_iff_ne_none.2 left)
    simp [shutdown, ShutdownRun.ofOperations, records.failed, pendingLeft]
  · exact records.time (Option.isSome_iff_ne_none.2 left)

/-- The first request starts the operations in their order, each once, up to the first that does not
end in time for the limit. Without such a one all are started, and the names of those that have
failed or exceeded their own limit are the outcome; otherwise it is the timeout of the whole. Later
requests start nothing. -/
theorem operations_started_in_order (operations : List Cleanup) (limit : Number) (together : Bool)
    (now : Time) (later : Nat) :
    ∃ first rest stints pending,
      (requests ⟨operations, limit, false⟩ together now (later + 1)).1 = first :: rest ∧
      ShutdownRun.Course (duration limit) true 0 operations stints pending ∧
      (∀ stints' pending',
        ShutdownRun.Course (duration limit) true 0 operations stints' pending' →
          stints' = stints ∧ pending' = pending) ∧
      first.started = stints.map Stint.start ++ pending.toList.map (fun p => (p.1.name, p.2)) ∧
      first.started.map Prod.fst <+: operations.map Cleanup.name ∧
      (pending = none → first.outcome = .ok (failures stints) ∧
        first.started.map Prod.fst = operations.map Cleanup.name) ∧
      (pending ≠ none → first.elapsed = duration limit ∧
        first.outcome = .error (.failure (.timeout "Graceful shutdown" (some limit)))) ∧
      rest.length = later ∧ ∀ a ∈ rest, a.outcome = .ok [] ∧ a.started = [] := by
  obtain ⟨stints, pending, course, started, ended, overdue⟩ := exists_course operations limit now
  obtain ⟨unstarted, listed, all⟩ := course.operations
  have names : operations.map Cleanup.name =
      (shutdown ⟨operations, limit, false⟩ now).1.started.map Prod.fst ++
        unstarted.map Cleanup.name := by
    rw [started, listed]
    simp [Stint.start, Function.comp_def]
  obtain ⟨idle, length⟩ := requests_of_begun (s := ⟨operations, limit, true⟩) rfl together
    (if together then now else now + (shutdown ⟨operations, limit, false⟩ now).1.elapsed) later
  refine ⟨(shutdown ⟨operations, limit, false⟩ now).1, _, stints, pending, rfl, course,
    fun _ _ course' => course'.unique course, started, ⟨_, names.symm⟩,
    fun done => ⟨ended done, ?_⟩, fun left => (overdue left).symm, length, idle⟩
  rw [names, all done, List.map_nil, List.append_nil]

def hangingFirst : Shutdown :=
  { operations := [{ name := "Stuck", settling := .never, succeeds := true },
      { name := "Next", settling := .atOnce, succeeds := true }]
    limit := 1000 }

/-- An operation that hangs keeps those after it from being started before the request ends. -/
theorem hanging_operation_is_last :
    (hangingFirst.shutdown 0).1.outcome =
        .error (.failure (.timeout "Graceful shutdown" (some 1000))) ∧
      (hangingFirst.shutdown 0).1.started = [("Stuck", 0)] :=
  ⟨rfl, by decide⟩

end Shutdown
end VisaEligibility.Clock
