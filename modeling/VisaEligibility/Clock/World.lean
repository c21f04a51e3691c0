import VisaEligibility.Clock.Limit
import VisaEligibility.Program.Basic
/-!
Programs on a virtual clock. Time passes only while a call waits. A call that exceeds its limit is
abandoned: the program goes on without its reply, and the call still settles later. What is due at
one time happens in the order in which the waiting began.
-/
set_option autoImplicit false

namespace VisaEligibility.Clock

/-- What stands between a call and its reply: nothing, a pause, or a service that settles after some
time or never, with the limit and the reply that counts if the limit comes first. -/
inductive Wait (ρ : Type) where
  | nothing
  | pause (t : Time)
  | service (settles : Option Time) (limit : Time) (late : ρ)

/-- The world that calls are made on: what each waits for and what replies to it when the wait is
over. A call answered on the spot never lets others go first. -/
structure Environment (I : Interface) (σ : Type) where
  onTheSpot : I.Call → Bool
  wait : (c : I.Call) → σ → Wait (I.Reply c) × σ
  reply : Answers I σ

/-- The clock, the state of the environment and the abandoned calls with the times at which they
settle, earliest first. -/
structure World (I : Interface) (σ : Type) where
  time : Time := 0
  state : σ
  abandoned : List (Time × I.Call) := []

/-- Puts an entry behind those due no later. -/
def schedule {α : Type} (t : Time) (a : α) : List (Time × α) → List (Time × α)
  | [] => [(t, a)]
  | e :: es => if e.1.le t then e :: schedule t a es else (t, a) :: e :: es

namespace World

variable {I : Interface} {σ α : Type}

/-- Lets the abandoned calls settle that are due by a time. -/
def settle (env : Environment I σ) (t : Time) :
    List (Time × I.Call) → σ → List (Time × I.Call) × σ
  | [], s => ([], s)
  | e :: es, s => if e.1.le t then settle env t es (env.reply e.2 s).2 else (e :: es, s)

def moveTo (env : Environment I σ) (t : Time) (w : World I σ) : World I σ :=
  let (abandoned, state) := settle env t w.abandoned w.state
  ⟨t, state, abandoned⟩

def reply (env : Environment I σ) (c : I.Call) (w : World I σ) : I.Reply c × World I σ :=
  let (r, s) := env.reply c w.state
  (r, { w with state := s })

/-- Makes a call and waits for what comes first, its reply or its limit. -/
def answer (env : Environment I σ) : Answers I (World I σ) := fun c w =>
  if env.onTheSpot c then reply env c w
  else
    let (wait, s) := env.wait c w.state
    let w : World I σ := { w with state := s }
    match wait with
    | .nothing => reply env c w
    | .pause t => reply env c (moveTo env (w.time + t) w)
    | .service settles limit late =>
      match settles with
      | none => (late, moveTo env (w.time + limit) w)
      | some t =>
        if (w.time + t).le (w.time + limit) then reply env c (moveTo env (w.time + t) w)
        else
          let later := moveTo env (w.time + limit) w
          (late, { later with abandoned := schedule (w.time + t) c later.abandoned })

def run (env : Environment I σ) (p : Program I α) (w : World I σ) : α × World I σ :=
  p.eval (answer env) w

end World
end VisaEligibility.Clock
