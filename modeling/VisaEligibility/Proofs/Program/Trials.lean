import Mathlib.Data.ENat.Lattice
import VisaEligibility.Program.Trial
import VisaEligibility.Proofs.Program.Attempts
import VisaEligibility.Proofs.Program.Histories
/-!
Rules on scripts of outcomes. Where so many attempts may follow the first, the attempts made, the
pauses between them and the outcome are read off the script: they end with the first outcome that
is no failure worth another attempt, or when all are used.
-/
set_option autoImplicit false

namespace VisaEligibility

open Program

namespace Trial

variable {α : Type} {r : RetryRule} {n i : Nat} {script : Nat → Except Raised α}

def round (r : RetryRule) (script : Nat → Except Raised α) (i : Nat) : History (trialInterface α) :=
  ⟨.attempt, script i⟩ ::
    match script i with
    | .ok _ => []
    | .error e => [⟨.pause (r.delay i e), ()⟩]

def pause? : Exchange (trialInterface α) → Option Number
  | ⟨.pause ms, _⟩ => some ms
  | ⟨.attempt, _⟩ => none

def isAttempt : Exchange (trialInterface α) → Bool
  | ⟨.attempt, _⟩ => true
  | ⟨.pause _, _⟩ => false

theorem eval_eq_record {β : Type} (p : Program (trialInterface α) β) (t : Trial α) :
    (p.eval answer t).2 = ⟨t.script, t.attempts + (p.record answer t).countP isAttempt,
      ((p.record answer t).filterMap pause?).reverse ++ t.pauses⟩ := by
  induction p generalizing t with
  | done b => rfl
  | call c k ih =>
    rw [eval_call, ih, record]
    cases c with
    | attempt =>
      rw [List.countP_cons_of_pos (by rfl), List.filterMap_cons_none (by rfl)]
      simp only [answer]
      congr 1
      omega
    | pause ms =>
      rw [List.countP_cons_of_neg (by exact Bool.false_ne_true), List.filterMap_cons_some (by rfl)]
      simp [answer]

def attempt : Program (trialInterface α) (Except Raised α) :=
  perform (I := trialInterface α) .attempt

def pause (ms : Number) : Program (trialInterface α) Unit :=
  perform (I := trialInterface α) (.pause ms)

variable {β : Type} {t : Trial α}

theorem record_attempt (f : Except Raised α → Program (trialInterface α) β) :
    (attempt.bind f).record answer t = ⟨.attempt, t.script t.attempts⟩ ::
      (f (t.script t.attempts)).record answer { t with attempts := t.attempts + 1 } := rfl

theorem record_pause (ms : Number) (f : Unit → Program (trialInterface α) β) :
    ((pause ms).bind f).record answer t =
      ⟨.pause ms, ()⟩ :: (f ()).record answer { t with pauses := ms :: t.pauses } := rfl

/-- Of the attempts on a script from one on, `m` is the last. -/
structure LastFrom (r : RetryRule) (n : Nat) (script : Nat → Except Raised α) (i m : Nat) :
    Prop where
  reached : i ≤ m
  within : m ≤ n
  again : ∀ j, i ≤ j → j < m → r.repeats (script j) = true
  ends : m < n → r.repeats (script m) = false

/-- A script is taken in order, with a pause after each failure but the last. -/
theorem history_of_course {starts : List (Trial α)} {x : Except Raised α} {s : Trial α}
    (course : RetryRule.Course answer r n pause attempt i s starts x t)
    (limit : r.maxAttempts = .finite n) (hi : i ≤ n) (taken : s.attempts = i)
    (last : Option Raised) : ∃ m, LastFrom r n s.script i m ∧ x = s.script m ∧
      (r.runFrom pause attempt i last (n - i + 1)).record answer s =
        (List.range' i (m - i)).flatMap (round r s.script) ++ [⟨.attempt, s.script m⟩] := by
  induction course generalizing last with
  | @last i s ends =>
    subst taken
    have ends : ¬(r.repeats (s.script s.attempts) = true ∧ s.attempts < n) := ends
    refine ⟨s.attempts, ⟨Nat.le_refl _, hi, by omega, fun room => ?_⟩, rfl, ?_⟩
    · exact Bool.eq_false_iff.2 fun again => ends ⟨again, room⟩
    · rw [RetryRule.runFrom_succ limit, record_attempt, RetryRule.after_of_ends ends, Nat.sub_self]
      rfl
  | @again i s t e starts x room failed repeats rest ih =>
    subst taken
    have failed : s.script s.attempts = .error e := failed
    obtain ⟨m, later, outcome, recorded⟩ := ih (by omega) rfl (some e)
    have first (j : Nat) (beyond : s.attempts ≤ j) (before : j < m) :
        r.repeats (s.script j) = true := by
      by_cases this : j = s.attempts
      · rw [this, failed]
        exact repeats
      · exact later.again j (by omega) before
    have reached := later.reached
    have made : round r s.script s.attempts =
        [⟨.attempt, s.script s.attempts⟩, ⟨.pause (r.delay s.attempts e), ()⟩] := by
      rw [round, failed]
    have left : n - s.attempts = n - (s.attempts + 1) + 1 := by omega
    have steps : m - s.attempts = m - (s.attempts + 1) + 1 := by omega
    refine ⟨m, ⟨by omega, later.within, first, later.ends⟩, outcome, ?_⟩
    rw [RetryRule.runFrom_succ limit, record_attempt, steps, List.range'_succ, List.flatMap_cons,
      made, failed, RetryRule.after_of_repeats repeats room, record_pause, left]
    exact congrArg (fun h => ⟨.attempt, .error e⟩ :: ⟨.pause (r.delay s.attempts e), ()⟩ :: h)
      recorded

/-- The first outcome of a script that ends the attempts, infinity if there is none. -/
def FirstEnd (r : RetryRule) (script : Nat → Except Raised α) (k : ℕ∞) : Prop :=
  (∀ i : Nat, i < k → r.repeats (script i) = true) ∧
    ∀ i : Nat, k = i → r.repeats (script i) = false

theorem exists_firstEnd (r : RetryRule) (script : Nat → Except Raised α) :
    ∃ k, FirstEnd r script k := by
  by_cases ends : ∃ i, r.repeats (script i) = false
  · refine ⟨Nat.find ends, fun i before => ?_, fun i first => ?_⟩
    · simpa using Nat.find_min ends (Nat.cast_lt.1 before)
    · exact Nat.cast_inj.1 first ▸ Nat.find_spec ends
  · push Not at ends
    refine ⟨⊤, fun i _ => ?_, fun i first => absurd first.symm (ENat.natCast_ne_top i)⟩
    simpa using ends i

theorem LastFrom.eq_min {k : ℕ∞} {m : Nat} (last : LastFrom r n script 0 m)
    (first : FirstEnd r script k) : (m : ℕ∞) = min k n := by
  refine le_antisymm (le_min ?_ (Nat.cast_le.2 last.within)) ?_
  · by_contra before
    obtain ⟨i, rfl⟩ := ENat.ne_top_iff_exists.1 (ne_top_of_lt (not_le.1 before))
    have again := last.again i (Nat.zero_le i) (Nat.cast_lt.1 (not_le.1 before))
    cases (first.2 i rfl).symm.trans again
  · by_cases early : m < n
    · refine (min_le_left _ _).trans (not_lt.1 fun later => ?_)
      cases (last.ends early).symm.trans (first.1 m later)
    · exact (min_le_right _ _).trans (Nat.cast_le.2 (not_lt.1 early))

/-- What a rule does with a script whose attempt `m` is the last. -/
structure Course (r : RetryRule) (script : Nat → Except Raised α) (m : Nat) : Prop where
  history : (program r).record answer ⟨script, 0, []⟩ =
    (List.range m).flatMap (round r script) ++ [⟨.attempt, script m⟩]
  attempts : (run r script).2.attempts = m + 1
  pauses_length : (run r script).2.pauses.length = m
  pauses : ∀ i < m, ∃ e, script i = .error e ∧
    (run r script).2.pauses.reverse[i]? = some (r.delay i e)
  outcome : (run r script).1 = (script m).mapError Raised.reported
  same_outcome : (∀ e, script m = .error e → e.hasText = true) → (run r script).1 = script m
  never_exhausted : ∀ extra,
    r.runFrom pause attempt 0 none (r.attempts + extra) =
      (program r : Program (trialInterface α) (Except Raised α))

theorem pauses_rounds {m : Nat} (again : ∀ i < m, r.repeats (script i) = true) :
    let pauses := ((List.range m).flatMap (round r script)).filterMap pause?
    pauses.length = m ∧ ∀ i < m, ∃ e, script i = .error e ∧ pauses[i]? = some (r.delay i e) := by
  induction m with
  | zero => exact ⟨rfl, nofun⟩
  | succ m ih =>
    obtain ⟨length, delays⟩ := ih fun i hi => again i (by omega)
    obtain ⟨e, failed⟩ := RetryRule.exists_error_of_repeats (again m (by omega))
    have made : round r script m = [⟨.attempt, script m⟩, ⟨.pause (r.delay m e), ()⟩] := by
      rw [round, failed]
    have last : (round r script m).filterMap pause? = [r.delay m e] := by
      rw [made]
      rfl
    dsimp only
    rw [List.range_succ, List.flatMap_append, List.flatMap_singleton, List.filterMap_append, last]
    refine ⟨by rw [List.length_append, length, List.length_singleton], fun i hi => ?_⟩
    rcases Nat.lt_succ_iff_lt_or_eq.1 hi with before | rfl
    · rw [List.getElem?_append_left (by omega)]
      exact delays i before
    · exact ⟨e, failed, by rw [List.getElem?_append_right (by omega), length]; simp⟩

theorem countP_rounds {m : Nat} :
    ((List.range m).flatMap (round r script)).countP isAttempt = m := by
  induction m with
  | zero => rfl
  | succ m ih =>
    have one : (round r script m).countP isAttempt = 1 := by
      unfold round
      cases script m <;> rfl
    rw [List.range_succ, List.flatMap_append, List.flatMap_singleton, List.countP_append, ih, one]

theorem exists_course (limit : r.maxAttempts = .finite n) (script : Nat → Except Raised α) :
    ∃ m, LastFrom r n script 0 m ∧ Course r script m := by
  have started : (program r : Program (trialInterface α) (Except Raised α)) =
      r.runFrom pause attempt 0 none (n - 0 + 1) := by
    change r.runFrom pause attempt 0 none r.attempts = _
    rw [RetryRule.attempts_of_limit limit]
    rfl
  obtain ⟨starts, x, t, course, ended⟩ :=
    RetryRule.course_runFrom answer ⟨script, 0, []⟩ none limit (Nat.zero_le n)
  obtain ⟨m, last, rfl, recorded⟩ := history_of_course course limit (Nat.zero_le n) rfl none
  rw [← started] at ended recorded
  rw [Nat.sub_zero, ← List.range_eq_range'] at recorded
  have kept := eval_eq_record (program r) ⟨script, 0, []⟩
  rw [recorded, List.countP_append, countP_rounds, List.filterMap_append] at kept
  obtain ⟨length, delays⟩ := pauses_rounds fun i => last.again i (Nat.zero_le i)
  have attempts : (run r script).2.attempts = m + 1 := by
    rw [run, kept]
    exact Nat.zero_add _
  have pauses : (run r script).2.pauses.reverse =
      ((List.range m).flatMap (round r script)).filterMap pause? := by
    rw [run, kept]
    simp [pause?]
  have outcome : (run r script).1 = (script m).mapError Raised.reported := congrArg Prod.fst ended
  refine ⟨m, last, recorded, attempts, ?_, fun i hi => ?_, outcome, fun readable => ?_,
    fun extra => ?_⟩
  · rw [← List.length_reverse, pauses, length]
  · rw [pauses]
    exact delays i hi
  · rw [outcome]
    cases final : script m with
    | ok a => rfl
    | error e => exact congrArg Except.error (if_pos (readable e final))
  · rw [RetryRule.attempts_of_limit limit, started]
    exact RetryRule.runFrom_extra limit extra (Nat.zero_le n)

/-- If so many attempts may follow the first, the attempts end with the first outcome that ends them
or when all are used. Every failure that was met before is followed by its pause, and the last
outcome is that of the whole, unless it is a failure without a text. -/
theorem runs_exactly_the_attempts_allowed (n : Nat) (isRetryable : Raised → Bool)
    (delay : Nat → Raised → Number) (script : Nat → Except Raised α) :
    (∃ (k : ℕ∞) (m : Nat), FirstEnd ⟨.finite n, isRetryable, delay⟩ script k ∧
      (m : ℕ∞) = min k n ∧ Course ⟨.finite n, isRetryable, delay⟩ script m) ∧
    ∀ (p : RetryPolicy) (i : Nat) (e : Raised), p.Pauses i e (p.delay i e) := by
  obtain ⟨k, first⟩ := exists_firstEnd ⟨.finite n, isRetryable, delay⟩ script
  obtain ⟨m, last, course⟩ := exists_course (r := ⟨.finite n, isRetryable, delay⟩) rfl script
  exact ⟨⟨k, m, first, last.eq_min first, course⟩, RetryPolicy.pauses_delay⟩

def overloaded : Nat → Except Raised String
  | 0 => .error (.value (.record [("status", .number 503)]))
  | 1 => .error (.value (.record [("status", .number 429),
      ("headers", .record [("retry-after", .text "2")])]))
  | _ + 2 => .ok "done"

example : (run (RetryPolicy.rule {}) overloaded).2.pauses = [2000, 1000] := by decide +kernel

def recovering : Nat → Except Raised String
  | 0 => .error (.value (.record [("status", .number 503), ("toString", .number 1)]))
  | _ + 1 => .ok "done"

/-- More attempts are allowed and the second one would succeed, but the first one is the last. -/
theorem ends_for_want_of_text :
    let r : RetryRule := ⟨.finite (3 : Nat), Raised.isTransient, RetryPolicy.delay {}⟩
    (∀ e, recovering 0 = .error e → r.isRetryable e = true) ∧ recovering 1 = .ok "done" ∧
      (run r recovering).2.attempts = 1 ∧ (run r recovering).1 = .error (.failure .noText) := by
  intro r
  have ends : r.repeats (recovering 0) = false := by decide +kernel
  obtain ⟨m, last, course⟩ := exists_course (r := r) (n := 3) rfl recovering
  obtain rfl : m = 0 := by
    by_contra later
    cases ends.symm.trans (last.again 0 (Nat.le_refl 0) (by omega))
  refine ⟨fun e he => ?_, rfl, course.attempts, course.outcome⟩
  cases he
  decide +kernel

end Trial
end VisaEligibility
