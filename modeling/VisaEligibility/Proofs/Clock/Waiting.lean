import VisaEligibility.Proofs.Bench.Services
import VisaEligibility.Proofs.Number.Adding
import VisaEligibility.Proofs.Program.Attempts
/-!
How long calls on the virtual clock wait. A call under a limit never takes longer: its reply is its
own if it is due by the limit on the clock, and otherwise the reply of the limit. Repeated calls
take at most a limit for every attempt and a pause for every repetition.
-/
set_option autoImplicit false

namespace VisaEligibility.Clock

open Program

theorem zero_le_duration (ms : Number) : Number.le 0 (duration ms) = true := by
  unfold duration
  split
  · rename_i positive
    rw [Number.le, positive]
    rfl
  · rfl

theorem duration_le {ms : Number} {bound : Time} (positive : Number.le 0 bound = true)
    (h : bound.lt ms = false) : (duration ms).le bound = true := by
  unfold duration
  split
  · rename_i some
    exact Number.le_of_not_lt (Number.le_iff.1 positive).2.1 (Number.lt_iff.1 some).2.1 h
  · exact positive

theorem le_duration {bound : Time} (positive : Number.le 0 bound = true) :
    bound.le (duration bound) = true := by
  have known := (Number.le_iff.1 positive).2.1
  unfold duration
  split
  · exact Number.le_refl known
  · rename_i none
    exact Number.le_of_not_lt nofun known (Bool.eq_false_iff.2 none)

/-- A wait under a limit: a service that settles no earlier than it is called, or nothing. -/
def Wait.Within {ρ : Type} (limit : Time) (late : ρ) : Wait ρ → Prop
  | .nothing => True
  | .pause _ => False
  | .service settles l r => l = limit ∧ r = late ∧ ∀ t, settles = some t → Number.le 0 t = true

variable {I : Interface} {σ : Type} {env : Environment I σ} {w : World I σ} {limit : Time}

/-- A call that is answered by its own reply. -/
def Environment.InTime (env : Environment I σ) (c : I.Call) (w : World I σ) : Prop :=
  env.onTheSpot c = true ∨ (env.wait c w.state).1.InTime w.time

namespace World

/-- What comes after a world, no later than a time allows. -/
structure Moves (bound : Time) (w w' : World I σ) : Prop where
  double : w'.time.Double
  later : w.time.le w'.time = true
  within : w'.time.le (w.time + bound) = true

theorem Moves.mono {w' : World I σ} {bound larger : Time} (moves : Moves bound w w')
    (hw : w.time.Double) (nonneg : Number.le 0 bound = true) (h : bound.le larger = true) :
    Moves larger w w' := by
  have same := Number.le_refl (Number.le_iff.1 (Number.le_add hw nonneg)).1
  exact ⟨moves.double, moves.later,
    Number.le_trans moves.within (Number.add_le_add hw hw same nonneg h)⟩

@[simp] theorem moveTo_time (t : Time) : (moveTo env t w).time = t := rfl

@[simp] theorem reply_time (c : I.Call) : (reply env c w).2.time = w.time := rfl

/-- The state in which a call settles: its wait has begun, and the abandoned calls that are due no
later have settled. -/
def settling (env : Environment I σ) (c : I.Call) (w : World I σ) : σ :=
  if env.onTheSpot c then w.state
  else
    match env.wait c w.state with
    | (.nothing, s) => s
    | (.pause t, s) => (settle env (w.time + t) w.abandoned s).2
    | (.service settles _ _, s) =>
      match settles with
      | none => s
      | some t => (settle env (w.time + t) w.abandoned s).2

theorem answer_within {c : I.Call} {late : I.Reply c}
    (within : (env.wait c w.state).1.Within limit late) (nonneg : Number.le 0 limit = true)
    (hw : w.time.Double) :
    (env.InTime c w → (answer env c w).1 = (env.reply c (settling env c w)).1) ∧
      (¬env.InTime c w → (answer env c w).1 = late) ∧ Moves limit w (answer env c w).2 := by
  have grown := Number.le_add hw nonneg
  have stays : w.time.le w.time = true := Number.le_refl (Number.le_iff.1 grown).1
  have limited := hw.add nonneg
  have ended : (w.time + limit).le (w.time + limit) = true :=
    Number.le_refl (Number.le_iff.1 grown).2.1
  unfold Environment.InTime
  by_cases spot : env.onTheSpot c = true
  · rw [answer, settling, if_pos spot, if_pos spot]
    exact ⟨fun _ => rfl, fun late => absurd (.inl spot) late, ⟨hw, stays, grown⟩⟩
  rcases waits : env.wait c w.state with ⟨wait, s⟩
  rw [waits] at within
  rw [answer, settling, if_neg spot, if_neg spot, waits]
  cases wait with
  | nothing =>
    exact ⟨fun _ => rfl, fun late => absurd (.inr trivial) late, ⟨hw, stays, grown⟩⟩
  | pause t => cases within
  | service settles l r =>
    obtain ⟨rfl, rfl, later⟩ := within
    cases settles with
    | none =>
      refine ⟨fun inTime => ?_, fun _ => rfl, ⟨limited, grown, ended⟩⟩
      obtain inTime | ⟨t, settled, -⟩ := inTime
      · exact absurd inTime spot
      · cases settled
    | some t =>
      dsimp only
      by_cases due : (w.time + t).le (w.time + l) = true
      · rw [if_pos due]
        exact ⟨fun _ => rfl, fun late => absurd (.inr ⟨t, rfl, due⟩) late,
          ⟨hw.add (later t rfl), Number.le_add hw (later t rfl), due⟩⟩
      · rw [if_neg due]
        refine ⟨fun inTime => ?_, fun _ => rfl, ⟨limited, grown, ended⟩⟩
        obtain inTime | ⟨t', settled, due'⟩ := inTime
        · exact absurd inTime spot
        · cases settled
          exact absurd due' due

theorem answer_pause {c : I.Call} {t : Time} (waits : env.onTheSpot c = false)
    (paused : (env.wait c w.state).1 = .pause t) :
    (answer env c w).2.time = w.time + t := by
  rcases hw : env.wait c w.state with ⟨wait, s⟩
  rw [hw] at paused
  subst paused
  simp [answer, waits, hw]

end World

/-- The clock after so many repetitions if every attempt reaches its limit and every pause is as
long as it may be. -/
def latest (limit pause : Time) : Nat → Time → Time
  | 0, t => t + limit
  | k + 1, t => latest limit pause k (t + limit + pause)

section Latest

variable {pause t u : Time} (hl : Number.le 0 limit = true) (hp : Number.le 0 pause = true)

include hl hp

theorem latest_mono (k : Nat) (ht : t.Double) (hu : u.Double) (h : t.le u = true) :
    (latest limit pause k t).le (latest limit pause k u) = true := by
  have same {x : Time} (hx : Number.le 0 x = true) : x.le x = true :=
    Number.le_refl (Number.le_iff.1 hx).2.1
  induction k generalizing t u with
  | zero => exact Number.add_le_add ht hu h hl (same hl)
  | succ k ih =>
    refine ih ((ht.add hl).add hp) ((hu.add hl).add hp) ?_
    exact Number.add_le_add (ht.add hl) (hu.add hl) (Number.add_le_add ht hu h hl (same hl)) hp
      (same hp)

theorem add_limit_le_latest (k : Nat) (ht : t.Double) :
    (t + limit).le (latest limit pause k t) = true := by
  induction k generalizing t with
  | zero => exact Number.le_refl (Number.le_iff.1 (Number.le_add (ht.add hl) hl)).1
  | succ k ih =>
    have paused := Number.le_add (ht.add hl) hp
    have again := Number.le_add ((ht.add hl).add hp) hl
    exact Number.le_trans paused (Number.le_trans again (ih ((ht.add hl).add hp)))

/-- Attempts under a limit come to an end by the latest time. -/
theorem moves_course {α : Type} {r : RetryRule} {n i : Nat} {wait : Number → Program I Unit}
    {operation : Program I (Except Raised α)} {starts : List (World I σ)} {x : Except Raised α}
    {w' : World I σ}
    (course : RetryRule.Course (World.answer env) r n wait operation i w starts x w')
    (attempted : ∀ u : World I σ, u.time.Double →
      World.Moves limit u (operation.eval (World.answer env) u).2)
    (paused : ∀ k e (u : World I σ), u.time.Double →
      World.Moves pause u ((wait (r.delay k e)).eval (World.answer env) u).2)
    (hw : w.time.Double) (hi : i ≤ n) :
    (∀ u ∈ starts, u.time.Double) ∧ w'.time.Double ∧ w.time.le w'.time = true ∧
      w'.time.le (latest limit pause (n - i) w.time) = true := by
  induction course with
  | @last i s ends =>
    have made := attempted s hw
    refine ⟨by simpa using hw, made.double, made.later, ?_⟩
    exact Number.le_trans made.within (add_limit_le_latest hl hp _ hw)
  | @again i s t e starts x room failed repeats rest ih =>
    have made := attempted s hw
    have waited := paused i e _ made.double
    obtain ⟨doubles, double, later, within⟩ := ih waited.double (by omega)
    have same : pause.le pause = true := Number.le_refl (Number.le_iff.1 hp).2.1
    have resumed := Number.le_trans waited.within
      (Number.add_le_add made.double (hw.add hl) made.within hp same)
    have left : n - i = n - (i + 1) + 1 := by omega
    refine ⟨List.forall_mem_cons.2 ⟨hw, doubles⟩, double,
      Number.le_trans made.later (Number.le_trans waited.later later), ?_⟩
    rw [left, latest]
    exact Number.le_trans within
      (latest_mono hl hp _ waited.double ((hw.add hl).add hp) resumed)

end Latest

theorem latest_natCast {l p t : Nat} (k : Nat)
    (small : t + ((k + 1) * l + k * p) < 2 ^ 53) :
    latest (.finite l) (.finite p) k (.finite t) = .finite (t + ((k + 1) * l + k * p) : Nat) := by
  induction k generalizing t with
  | zero =>
    rw [latest, Number.natCast_add_natCast (by omega)]
    simp
  | succ k ih =>
    have sum : t + l + p + ((k + 1) * l + k * p) = t + ((k + 1 + 1) * l + (k + 1) * p) := by ring
    rw [latest, Number.natCast_add_natCast (by omega), Number.natCast_add_natCast (by omega),
      ih (by omega), sum]

end VisaEligibility.Clock
