import VisaEligibility.Program.Retry
import VisaEligibility.Proofs.Number.Order
import VisaEligibility.Proofs.Program.Histories
/-!
The attempts of a repeated operation. Each follows the one before after a pause, until an outcome
ends them or none is left. A failure without a text ends them as well, and what is raised in its
place is that it has none.
-/
set_option autoImplicit false

namespace VisaEligibility

open Program

def Raised.secondsAsked? (e : Raised) : Option Number :=
  [e.property "headers", (e.property "response").field "headers"].findSome? retryAfterSeconds?

theorem Raised.retryAfter?_eq (e : Raised) :
    e.retryAfter? = e.secondsAsked?.map fun s => s.mul 1000 := by
  unfold retryAfter? secondsAsked?
  cases own : retryAfterSeconds? (e.property "headers") <;>
    cases given : retryAfterSeconds? ((e.property "response").field "headers") <;>
    simp [own, given]

theorem Raised.secondsAsked_pos {e : Raised} {s : Number} (asked : e.secondsAsked? = some s) :
    Number.lt 0 s = true := by
  obtain ⟨headers, -, read⟩ := List.exists_of_findSome?_eq_some asked
  simp only [retryAfterSeconds?, Option.ite_none_right_eq_some, Option.some.injEq] at read
  exact read.2 ▸ read.1

/-- A pause of a policy. Its arithmetic is read as exact where the power and the product are not
rounded. -/
structure RetryPolicy.Pauses (p : RetryPolicy) (i : Nat) (e : Raised) (w : Number) : Prop where
  bounded : p.maxDelay.lt w = false
  asked : ∀ s, e.secondsAsked? = some s →
    Number.lt 0 s = true ∧ w = (s.mul 1000).least p.maxDelay
  grown : e.secondsAsked? = none → w = (p.initialDelay.mul (p.multiplier.pow i)).least p.maxDelay
  asked_exact : ∀ s x : Rat, e.secondsAsked? = some (.finite s) → p.maxDelay = .finite x →
    (Number.finite s).mul 1000 = .finite (1000 * s) → w = .finite (min (1000 * s) x)
  grown_exact : ∀ a b x : Rat, e.secondsAsked? = none → p.initialDelay = .finite a →
    p.multiplier = .finite b → p.maxDelay = .finite x → p.multiplier.pow i = .finite (b ^ i) →
    p.initialDelay.mul (.finite (b ^ i)) = .finite (a * b ^ i) → w = .finite (min (a * b ^ i) x)

theorem RetryPolicy.pauses_delay (p : RetryPolicy) (i : Nat) (e : Raised) :
    p.Pauses i e (p.delay i e) := by
  have asked (s : Number) (hs : e.secondsAsked? = some s) :
      p.delay i e = (s.mul 1000).least p.maxDelay := by
    simp [delay, Raised.retryAfter?_eq, hs]
  have grown (hs : e.secondsAsked? = none) :
      p.delay i e = (p.initialDelay.mul (p.multiplier.pow i)).least p.maxDelay := by
    simp [delay, backoff, Raised.retryAfter?_eq, hs]
  refine ⟨?_, fun s hs => ⟨Raised.secondsAsked_pos hs, asked s hs⟩, grown, ?_, ?_⟩
  · cases hs : e.secondsAsked? with
    | none => exact grown hs ▸ Number.not_lt_least (Number.lt_irrefl _)
    | some s => exact asked s hs ▸ Number.not_lt_least (Number.lt_irrefl _)
  · intro s x hs bound product
    rw [asked _ hs, product, bound, Number.least_finite]
  · intro a b x hs _ _ bound power product
    rw [grown hs, power, product, bound, Number.least_finite]

namespace RetryRule

variable {I : Interface} {α : Type} {pause : Number → Program I Unit}
  {operation : Program I (Except Raised α)} {r : RetryRule} {n i left : Nat} {last : Option Raised}

/-- Whether an attempt with an outcome is followed by another, as long as one is left. -/
def repeats (r : RetryRule) : Except Raised α → Bool
  | .ok _ => false
  | .error e => e.hasText && r.isRetryable e

def after (r : RetryRule) (n : Nat) (pause : Number → Program I Unit)
    (operation : Program I (Except Raised α)) (i left : Nat) :
    Except Raised α → Program I (Except Raised α)
  | .ok a => done (.ok a)
  | .error e =>
    if r.repeats (.error e : Except Raised α) = true ∧ i < n then
      (pause (r.delay i e)).bind fun _ => r.runFrom pause operation (i + 1) (some e) left
    else done (.error e.reported)

theorem runFrom_succ (limit : r.maxAttempts = .finite n) :
    r.runFrom pause operation i last (left + 1) =
      operation.bind (r.after n pause operation i left) := by
  have reached : r.maxAttempts.le (.finite i) = decide (n ≤ i) := by
    rw [limit, Bool.eq_iff_iff, Number.le_finite, Nat.cast_le, decide_eq_true_iff]
  refine congrArg operation.bind (funext fun x => ?_)
  cases x with
  | ok a => rfl
  | error e =>
    have ends : (!e.hasText || !r.isRetryable e || decide (n ≤ i)) = true ↔
        ¬(r.repeats (.error e : Except Raised α) = true ∧ i < n) := by
      cases readable : e.hasText <;> cases retryable : r.isRetryable e <;>
        simp [repeats, readable, retryable]
    dsimp only [after]
    rw [reached]
    by_cases again : r.repeats (.error e : Except Raised α) = true ∧ i < n
    · rw [if_neg (mt ends.1 (not_not.2 again)), if_pos again]
      rfl
    · rw [if_pos (ends.2 again), if_neg again]
      rfl

theorem after_of_ends {x : Except Raised α} (ends : ¬(r.repeats x = true ∧ i < n)) :
    r.after n pause operation i left x = done (x.mapError Raised.reported) := by
  cases x with
  | ok a => rfl
  | error e => exact if_neg ends

theorem after_of_repeats {e : Raised} (again : r.repeats (.error e : Except Raised α) = true)
    (room : i < n) :
    r.after n pause operation i left (.error e) =
      (pause (r.delay i e)).bind fun _ => r.runFrom pause operation (i + 1) (some e) left :=
  if_pos ⟨again, room⟩

theorem exists_error_of_repeats {x : Except Raised α} (again : r.repeats x = true) :
    ∃ e, x = .error e := by
  cases x with
  | ok a => cases again
  | error e => exact ⟨e, rfl⟩

theorem repeats_iff {x : Except Raised α} : r.repeats x = true ↔
    ∃ e, x = .error e ∧ e.hasText = true ∧ r.isRetryable e = true := by
  cases x <;> simp [repeats]

theorem attempts_of_limit (limit : r.maxAttempts = .finite n) : r.attempts = n + 1 := by
  have known : (Number.finite n).lt 0 = false := by
    rw [← Bool.not_eq_true, Number.lt_iff]
    have ordered : Number.le 0 (.finite n) = true := Number.le_finite.2 (Nat.cast_nonneg n)
    simp [ordered]
  unfold attempts
  rw [limit]
  have whole : (n : Rat).floor = n := Rat.floor_intCast n
  simp [known, Number.value, whole]

/-- The attempts never run out: more of them would not be used. -/
theorem runFrom_extra (limit : r.maxAttempts = .finite n) (extra : Nat) (hi : i ≤ n) :
    r.runFrom pause operation i last (n - i + 1 + extra) =
      r.runFrom pause operation i last (n - i + 1) := by
  obtain ⟨d, rfl⟩ := Nat.exists_eq_add_of_le hi
  rw [Nat.add_sub_cancel_left]
  -- on the attempts that may follow; the last of them ends whatever its outcome is
  induction d generalizing i last with
  | zero =>
    rw [show 0 + 1 + extra = extra + 1 by omega, runFrom_succ limit, runFrom_succ limit]
    refine congrArg operation.bind (funext fun x => ?_)
    rw [after_of_ends (by omega), after_of_ends (by omega)]
  | succ d ih =>
    rw [show d + 1 + 1 + extra = d + 1 + extra + 1 by omega, runFrom_succ limit, runFrom_succ limit]
    refine congrArg operation.bind (funext fun x => ?_)
    by_cases again : r.repeats x = true
    · obtain ⟨e, rfl⟩ := exists_error_of_repeats again
      have limit' : r.maxAttempts = .finite (i + 1 + d : Nat) := by
        rw [limit]
        congr 2
        omega
      rw [after_of_repeats again (by omega), after_of_repeats again (by omega),
        ih limit' (by omega)]
    · rw [after_of_ends (by tauto), after_of_ends (by tauto)]

section Course

variable {σ : Type} {answer : Answers I σ}

/-- The attempts of an operation in a world, from one with a number on: the states in which they
begin, the outcome of the last one and the state that it leaves. -/
inductive Course (answer : Answers I σ) (r : RetryRule) (n : Nat)
    (pause : Number → Program I Unit) (operation : Program I (Except Raised α)) :
    Nat → σ → List σ → Except Raised α → σ → Prop
  | last {i : Nat} {s : σ} (ends : ¬(r.repeats (operation.eval answer s).1 = true ∧ i < n)) :
      Course answer r n pause operation i s [s] (operation.eval answer s).1
        (operation.eval answer s).2
  | again {i : Nat} {s t : σ} {e : Raised} {starts : List σ} {x : Except Raised α} (room : i < n)
      (failed : (operation.eval answer s).1 = .error e)
      (repeats : r.repeats (.error e : Except Raised α) = true)
      (rest : Course answer r n pause operation (i + 1)
        ((pause (r.delay i e)).eval answer (operation.eval answer s).2).2 starts x t) :
      Course answer r n pause operation i s (s :: starts) x t

theorem course_runFrom (answer : Answers I σ) (s : σ) (last : Option Raised)
    (limit : r.maxAttempts = .finite n) (hi : i ≤ n) :
    ∃ starts x t, Course answer r n pause operation i s starts x t ∧
      (r.runFrom pause operation i last (n - i + 1)).eval answer s =
        (x.mapError Raised.reported, t) := by
  obtain ⟨d, rfl⟩ := Nat.exists_eq_add_of_le hi
  rw [Nat.add_sub_cancel_left]
  induction d generalizing i last s with
  | zero =>
    refine ⟨_, _, _, .last (by omega), ?_⟩
    rw [runFrom_succ limit, eval_bind, after_of_ends (by omega)]
    rfl
  | succ d ih =>
    by_cases again : r.repeats (operation.eval answer s).1 = true
    · obtain ⟨e, failed⟩ := exists_error_of_repeats again
      have limit' : r.maxAttempts = .finite (i + 1 + d : Nat) := by
        rw [limit]
        congr 2
        omega
      have sum : i + (d + 1) = i + 1 + d := by omega
      obtain ⟨starts, x, t, course, ended⟩ :=
        ih ((pause (r.delay i e)).eval answer (operation.eval answer s).2).2 (some e) limit'
          (by omega)
      refine ⟨_, x, t, .again (by omega) failed (failed ▸ again) (sum ▸ course), ?_⟩
      rw [runFrom_succ limit, eval_bind, failed, after_of_repeats (failed ▸ again) (by omega),
        eval_bind, ended]
    · refine ⟨_, _, _, .last (by tauto), ?_⟩
      rw [runFrom_succ limit, eval_bind, after_of_ends (by tauto)]
      rfl

variable {s t : σ} {starts : List σ} {x : Except Raised α}

theorem Course.length_le (course : Course answer r n pause operation i s starts x t)
    (hi : i ≤ n) : starts.length ≤ n - i + 1 := by
  induction course with
  | last => simp
  | again room _ _ _ ih =>
    have rest := ih (by omega)
    rw [List.length_cons]
    omega

theorem Course.head (course : Course answer r n pause operation i s starts x t) :
    starts[0]? = some s := by
  cases course <;> rfl

theorem Course.follows_iff (course : Course answer r n pause operation i s starts x t) {j : Nat}
    {u : σ} (hu : starts[j]? = some u) :
    j + 1 < starts.length ↔ r.repeats (operation.eval answer u).1 = true ∧ i + j < n := by
  induction course generalizing j with
  | @last i s ends =>
    cases j with
    | zero =>
      cases hu
      simpa using ends
    | succ j => simp at hu
  | @again i s t e starts x room failed repeats rest ih =>
    cases j with
    | zero =>
      cases hu
      have more : 0 < starts.length := (List.getElem?_eq_some_iff.1 rest.head).1
      rw [failed]
      simp [more, repeats, room]
    | succ j =>
      have later := ih (by simpa using hu)
      rw [List.length_cons, Nat.add_lt_add_iff_right, later, Nat.add_assoc, Nat.add_comm 1]

theorem Course.outcome (course : Course answer r n pause operation i s starts x t) :
    ∃ u, starts.getLast? = some u ∧ operation.eval answer u = (x, t) := by
  induction course with
  | last => exact ⟨_, rfl, rfl⟩
  | again _ _ _ rest ih =>
    obtain ⟨u, last, ended⟩ := ih
    refine ⟨u, ?_, ended⟩
    rw [List.getLast?_cons, last]
    rfl

theorem Course.filter_record (course : Course answer r n pause operation i s starts x t)
    (limit : r.maxAttempts = .finite n) (hi : i ≤ n) {isCall : Exchange I → Bool}
    {made : σ → Exchange I} (one : ∀ u, (operation.record answer u).filter isCall = [made u])
    (none : ∀ ms u, ((pause ms).record answer u).filter isCall = []) :
    ((r.runFrom pause operation i last (n - i + 1)).record answer s).filter isCall =
      starts.map made := by
  induction course generalizing last with
  | last ends =>
    rw [runFrom_succ limit, record_bind, after_of_ends ends, List.filter_append, one]
    rfl
  | @again i s t e starts x room failed repeats rest ih =>
    have left : n - i = n - (i + 1) + 1 := by omega
    rw [runFrom_succ limit, record_bind, failed, after_of_repeats repeats room, record_bind,
      List.filter_append, List.filter_append, one, none, left, ih (by omega)]
    rfl

end Course

end RetryRule
end VisaEligibility
