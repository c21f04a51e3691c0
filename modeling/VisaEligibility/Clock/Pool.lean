import VisaEligibility.Clock.World
/-!
Programs that run side by side on one virtual clock. Those that can go on take turns, first come
first served, and a turn ends with the call that is not answered on the spot. When all of them wait,
the clock moves to the earliest event.
-/
set_option autoImplicit false

namespace VisaEligibility.Clock

variable {I : Interface} {σ α : Type}

/-- What is due at a time: a call settles, the limit of a call is reached, or an abandoned call
settles. A ticket tells whether the program that made the call still waits for it. -/
inductive Event (I : Interface) (α : Type) where
  | settles (member ticket : Nat) (c : I.Call) (resume : I.Reply c → Program I α)
  | expires (member ticket : Nat) (next : Program I α)
  | abandoned (c : I.Call)

/-- The members of a pool by number: those to go on, in turn; those that wait, with their tickets;
and those that are done. -/
structure Pool (I : Interface) (σ α : Type) where
  time : Time
  state : σ
  events : List (Time × Event I α)
  ready : List (Nat × Program I α)
  waiting : List (Nat × Nat)
  finished : List (Nat × α)
  tickets : Nat

/-- A program up to its next call that is not answered on the spot. -/
inductive Stretch (I : Interface) (α : Type) where
  | finished (a : α)
  | awaits (c : I.Call) (resume : I.Reply c → Program I α)

def stretch (env : Environment I σ) : Program I α → σ → Stretch I α × σ
  | .done a, s => (.finished a, s)
  | .call c k, s =>
    if env.onTheSpot c then
      let r := env.reply c s
      stretch env (k r.1) r.2
    else (.awaits c k, s)

namespace Pool

def start (w : World I σ) (programs : List (Program I α)) : Pool I σ α :=
  { time := w.time
    state := w.state
    events := w.abandoned.map fun e => (e.1, .abandoned e.2)
    ready := (List.range programs.length).zip programs
    waiting := []
    finished := []
    tickets := 0 }

def await (env : Environment I σ) (member : Nat) (c : I.Call)
    (resume : I.Reply c → Program I α) (p : Pool I σ α) : Pool I σ α :=
  let (wait, s) := env.wait c p.state
  let p := { p with state := s }
  let waiting := { p with waiting := (member, p.tickets) :: p.waiting, tickets := p.tickets + 1 }
  match wait with
  | .nothing =>
    let (r, s) := env.reply c p.state
    { p with state := s, ready := p.ready ++ [(member, resume r)] }
  | .pause t =>
    { waiting with events := schedule (p.time + t) (.settles member p.tickets c resume) p.events }
  | .service settles limit late =>
    let events := match settles with
      | some t => schedule (p.time + t) (.settles member p.tickets c resume) p.events
      | none => p.events
    { waiting with
      events := schedule (p.time + limit) (.expires member p.tickets (resume late)) events }

def turn (env : Environment I σ) (member : Nat) (program : Program I α) (p : Pool I σ α) :
    Pool I σ α :=
  match stretch env program p.state with
  | (.finished a, s) => { p with state := s, finished := p.finished ++ [(member, a)] }
  | (.awaits c k, s) => await env member c k { p with state := s }

def resume (member ticket : Nat) (next : Program I α) (p : Pool I σ α) : Pool I σ α :=
  if (member, ticket) ∈ p.waiting then
    { p with ready := p.ready ++ [(member, next)], waiting := p.waiting.erase (member, ticket) }
  else p

def fire (env : Environment I σ) (e : Event I α) (p : Pool I σ α) : Pool I σ α :=
  match e with
  | .settles member ticket c k =>
    let (r, s) := env.reply c p.state
    resume member ticket (k r) { p with state := s }
  | .expires member ticket next => resume member ticket next p
  | .abandoned c => { p with state := (env.reply c p.state).2 }

/-- One step: a turn, or the earliest event. -/
def step (env : Environment I σ) (p : Pool I σ α) : Pool I σ α :=
  match p.ready, p.events with
  | (member, program) :: ready, _ => turn env member program { p with ready }
  | [], (t, e) :: events => fire env e { p with time := if p.time.lt t then t else p.time, events }
  | [], [] => p

def isDone (p : Pool I σ α) : Bool := p.ready.isEmpty && p.waiting.isEmpty

def run (env : Environment I σ) : Nat → Pool I σ α → Pool I σ α
  | 0, p => p
  | budget + 1, p => if p.isDone then p else run env budget (step env p)

def leftover (p : Pool I σ α) : List (Time × I.Call) :=
  p.events.filterMap fun e =>
    match e.2 with
    | .settles _ _ c _ => some (e.1, c)
    | .expires _ _ _ => none
    | .abandoned c => some (e.1, c)

def toWorld (p : Pool I σ α) : World I σ := ⟨p.time, p.state, p.leftover⟩

def outcomes (p : Pool I σ α) : List (Option α) :=
  (List.range p.finished.length).map fun n => (p.finished.find? fun f => f.1 = n).map Prod.snd

end Pool

/-- The number of steps after which a pool is given up. -/
def stepLimit : Nat := 10000000

def World.runAll (env : Environment I σ) (programs : List (Program I α)) (w : World I σ) :
    List (Option α) × World I σ :=
  let p := Pool.run env stepLimit (Pool.start w programs)
  (p.outcomes, p.toWorld)

end VisaEligibility.Clock
