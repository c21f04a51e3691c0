import VisaEligibility.Proofs.Clock.Waiting
import VisaEligibility.Proofs.Reasoning.Stages
/-!
The remote stages on the virtual clock. Each calls its provider under a limit and repeats the call
under a policy, so it comes to an end by a time that only its policy decides, whatever the provider
does. A call that has not settled at its limit counts as timed out, also if it is answered later.
-/
set_option autoImplicit false

namespace VisaEligibility

open Program
open Clock (Environment Time World duration latest limitDuration)

theorem Raised.isTransient_timeout (operation : String) (limit : Option Number) :
    (Raised.failure (.timeout operation limit)).isTransient = true := by
  have unset (key : String) (other : key ∉ ["code", "timeoutMs", "message", "name"]) :
      (Raised.failure (.timeout operation limit)).property key = .undefined := by
    simp only [List.mem_cons, List.not_mem_nil, or_false, not_or] at other
    obtain ⟨code, timeout, message, name⟩ := other
    simp [property, Failure.property, Failure.timeout, Entries.get?, Ne.symm code,
      Ne.symm timeout, message, name]
  have code : (Raised.failure (.timeout operation limit)).hasCode networkCodes = true := by rfl
  unfold isTransient
  rw [unset "status" (by decide), unset "statusCode" (by decide), unset "response" (by decide),
    code]
  rfl

inductive RemoteStage where
  | embed (s : RetrievalSettings) (text : String)
  | search (s : RetrievalSettings) (vector : List Number) (filters : ChunkFilters)
    (topK minSimilarity : Number)
  | consult (s : ReasoningSettings) (p : Prompt)

namespace RemoteStage

abbrev Answer : RemoteStage → Type
  | embed _ _ => List Number
  | search _ _ _ _ _ => List Chunk
  | consult _ _ => ModelAnswer

def policy : RemoteStage → Option CallPolicy
  | embed s _ => s.embedding
  | search s _ _ _ _ => s.search
  | consult s _ => s.model

def operation : RemoteStage → String
  | embed _ _ => Bench.embeddingOperation
  | search _ _ _ _ _ => Bench.searchOperation
  | consult _ _ => Bench.modelOperation

def call : RemoteStage → Option Number → Call
  | embed _ text, limit => .embedding text limit
  | search _ vector filters topK minSimilarity, limit =>
    .search vector filters topK minSimilarity limit
  | consult s p, limit => .completion p.messages ⟨s.temperature, s.maxTokens⟩ limit

def perform : (c : RemoteStage) → Option Number → Engine (Except Raised c.Answer)
  | embed _ text, limit => Engine.embedding text limit
  | search _ vector filters topK minSimilarity, limit =>
    Engine.search vector filters topK minSimilarity limit
  | consult s p, limit => Engine.completion p.messages ⟨s.temperature, s.maxTokens⟩ limit

def run : (c : RemoteStage) → Retrieval.Attempted c.Answer
  | embed s text => Retrieval.embed s text
  | search s vector filters topK minSimilarity =>
    Retrieval.search s vector filters topK minSimilarity
  | consult s p => Reasoning.consult s p

def result : (c : RemoteStage) → Except Raised c.Answer → Except Failure c.Answer
  | embed s _, .ok v => Retrieval.checkVector s.embeddingDimensions v
  | embed _ _, .error e => .error (.ofActivity .embedding "Embedding generation" e)
  | search _ _ _ topK minSimilarity, .ok chunks => .ok (Chunk.rank chunks topK minSimilarity)
  | search _ _ _ _ _, .error e => .error (.ofActivity .retrieval "Vector search" e)
  | consult _ _, .ok a => .ok a
  | consult _ _, .error e => .error (.ofActivity .model Reasoning.activity e)

def finish : (c : RemoteStage) → Except Raised c.Answer → Engine (Except Failure c.Answer)
  | embed s text, x => done ((embed s text).result x)
  | search s vector filters topK minSimilarity, x =>
    done ((search s vector filters topK minSimilarity).result x)
  | consult _ _, .ok a => do
    Engine.count (.modelCall Reasoning.providerName a.model "success")
    return .ok a
  | consult _ _, .error e => do
    Engine.count (.modelCall Reasoning.providerName "unknown" "error")
    return .error (.ofActivity .model Reasoning.activity e)

theorem run_eq {c : RemoteStage} {p : CallPolicy} (hp : c.policy = some p) :
    c.run.run = (Retrieval.remote p c.perform).bind c.finish := by
  cases c with
  | embed s text =>
    have set : s.embedding = some p := hp
    change (Retrieval.embed s text).run = (Retrieval.remote p (Engine.embedding text)).bind _
    simp only [Retrieval.embed, Retrieval.policyOf, Retrieval.staged, set, ExceptT.run_bind,
      ExceptT.run_mk, bind_eq, pure_eq, done_bind, bind_assoc]
    congr 1
    funext x
    cases x <;> rfl
  | search s vector filters topK minSimilarity =>
    have set : s.search = some p := hp
    change (Retrieval.search s vector filters topK minSimilarity).run =
      (Retrieval.remote p (Engine.search vector filters topK minSimilarity)).bind _
    simp only [Retrieval.search, Retrieval.policyOf, Retrieval.staged, set, ExceptT.run_bind,
      ExceptT.run_mk, bind_eq, pure_eq, done_bind, bind_assoc]
    congr 1
    funext x
    cases x <;> rfl
  | consult s prompt =>
    have set : s.model = some p := hp
    change (Reasoning.consult s prompt).run = (Retrieval.remote p (Engine.completion prompt.messages
      ⟨s.temperature, s.maxTokens⟩)).bind _
    simp only [Reasoning.consult, Reasoning.consultUnder, Retrieval.policyOf, set, ExceptT.run_bind,
      ExceptT.run_mk, bind_eq, pure_eq, done_bind]
    congr 1
    funext x
    cases x <;> rfl

end RemoteStage

/-- A world in which the calls of providers are under their limits. -/
structure Clock.Environment.KeepsLimits {σ : Type} (env : Environment Call.interface σ) : Prop where
  embedding : ∀ text limit s, (env.wait (.embedding text limit) s).1.Within (limitDuration limit)
    (.error (.failure (.timeout Bench.embeddingOperation limit)))
  search : ∀ vector filters topK minSimilarity limit s,
    (env.wait (.search vector filters topK minSimilarity limit) s).1.Within (limitDuration limit)
      (.error (.failure (.timeout Bench.searchOperation limit)))
  completion : ∀ messages options limit s,
    (env.wait (.completion messages options limit) s).1.Within (limitDuration limit)
      (.error (.failure (.timeout Bench.modelOperation limit)))
  called : ∀ c, c.stage?.isSome = true → env.onTheSpot c = false
  pause : ∀ ms s, env.onTheSpot (.pause ms) = false ∧
    (env.wait (.pause ms) s).1 = .pause (duration ms)
  count : ∀ counter, env.onTheSpot (.count counter) = true

namespace RemoteStage

variable {σ : Type} {env : Environment Call.interface σ} {c : RemoteStage}
  {w : World Call.interface σ} {limit : Option Number}

def ask (env : Environment Call.interface σ) (c : RemoteStage) (limit : Option Number)
    (w : World Call.interface σ) : Except Raised c.Answer × World Call.interface σ :=
  (c.perform limit).eval (World.answer env) w

def own (env : Environment Call.interface σ) :
    (c : RemoteStage) → Option Number → σ → Except Raised c.Answer
  | embed _ text, limit, s => (env.reply (.embedding text limit) s).1
  | search _ vector filters topK minSimilarity, limit, s =>
    (env.reply (.search vector filters topK minSimilarity limit) s).1
  | consult s p, limit, t =>
    (env.reply (.completion p.messages ⟨s.temperature, s.maxTokens⟩ limit) t).1

def isRemote (x : Exchange Call.interface) : Bool := x.call.stage?.isSome

def made (env : Environment Call.interface σ) (c : RemoteStage) (limit : Option Number)
    (w : World Call.interface σ) : Exchange Call.interface :=
  ⟨c.call limit, (World.answer env (c.call limit) w).1⟩

theorem asked (keeps : env.KeepsLimits) (c : RemoteStage) (limit : Option Number)
    (hw : w.time.Double) :
    (env.InTime (c.call limit) w →
        (c.ask env limit w).1 = c.own env limit (World.settling env (c.call limit) w)) ∧
      (¬env.InTime (c.call limit) w →
        (c.ask env limit w).1 = .error (.failure (.timeout c.operation limit))) ∧
      World.Moves (limitDuration limit) w (c.ask env limit w).2 := by
  have nonneg : Number.le 0 (limitDuration limit) = true := by
    cases limit with
    | none => rfl
    | some ms => exact Clock.zero_le_duration ms
  cases c with
  | embed s text => exact World.answer_within (keeps.embedding text limit _) nonneg hw
  | search s vector filters topK minSimilarity =>
    exact World.answer_within (keeps.search vector filters topK minSimilarity limit _) nonneg hw
  | consult s p => exact World.answer_within (keeps.completion p.messages _ limit _) nonneg hw

theorem stage_call (c : RemoteStage) (limit : Option Number) :
    (c.call limit).stage?.isSome = true := by
  cases c <;> rfl

theorem finished (keeps : env.KeepsLimits) (c : RemoteStage) (x : Except Raised c.Answer) :
    ((c.finish x).eval (World.answer env) w).1 = c.result x ∧
      ((c.finish x).eval (World.answer env) w).2.time = w.time ∧
      ((c.finish x).record (World.answer env) w).filter isRemote = [] := by
  have counted (counter : Counter) : (World.answer env (.count counter) w).2.time = w.time := by
    rw [World.answer, if_pos (keeps.count counter)]
    rfl
  cases c with
  | embed s text => cases x <;> exact ⟨rfl, rfl, rfl⟩
  | search s vector filters topK minSimilarity => cases x <;> exact ⟨rfl, rfl, rfl⟩
  | consult s p => cases x <;> exact ⟨rfl, counted _, rfl⟩

theorem filter_perform (c : RemoteStage) (limit : Option Number) (w : World Call.interface σ) :
    ((c.perform limit).record (World.answer env) w).filter isRemote = [c.made env limit w] := by
  cases c <;> rfl

theorem within_call (keeps : env.KeepsLimits) (c : RemoteStage) (limit : Option Number) (s : σ) :
    ∃ late, (env.wait (c.call limit) s).1.Within (limitDuration limit) late := by
  cases c with
  | embed _ text => exact ⟨_, keeps.embedding text limit s⟩
  | search _ vector filters topK minSimilarity =>
    exact ⟨_, keeps.search vector filters topK minSimilarity limit s⟩
  | consult _ p => exact ⟨_, keeps.completion p.messages _ limit s⟩

theorem inTime_iff (keeps : env.KeepsLimits) {settles : Option Time} {l : Time}
    {late : (Call.interface).Reply (c.call limit)}
    (served : (env.wait (c.call limit) w.state).1 = .service settles l late) :
    env.InTime (c.call limit) w ↔
      ∃ t, settles = some t ∧ (w.time + t).le (w.time + limitDuration limit) = true := by
  obtain ⟨late', within⟩ := within_call keeps c limit w.state
  rw [served] at within
  obtain ⟨rfl, -, -⟩ := within
  have waits := keeps.called (c.call limit) (stage_call c limit)
  simp [Environment.InTime, waits, served, Clock.Wait.InTime]

theorem inTime_of_le (keeps : env.KeepsLimits) {timeout t l : Time}
    {late : (Call.interface).Reply (c.call (some timeout))} (hw : w.time.Double)
    (waits : Number.le 0 timeout = true)
    (served : (env.wait (c.call (some timeout)) w.state).1 = .service (some t) l late)
    (h : t.le timeout = true) : env.InTime (c.call (some timeout)) w := by
  obtain ⟨late', within⟩ := within_call keeps c (some timeout) w.state
  rw [served] at within
  have nonneg := within.2.2 t rfl
  have same := Number.le_refl (Number.le_iff.1 (Number.le_add hw nonneg)).1
  refine (inTime_iff keeps served).2 ⟨t, rfl, ?_⟩
  exact Number.add_le_add hw hw same nonneg (Number.le_trans h (Clock.le_duration waits))

theorem result_error (c : RemoteStage) (e : Raised) : ∃ f, c.result (.error e) = .error f := by
  cases c <;> exact ⟨_, rfl⟩

theorem paused (keeps : env.KeepsLimits) {ms : Number} (hw : w.time.Double) {bound : Time}
    (nonneg : Number.le 0 bound = true) (h : bound.lt ms = false) :
    World.Moves bound w ((Engine.pause ms).eval (World.answer env) w).2 := by
  have time : ((Engine.pause ms).eval (World.answer env) w).2.time = w.time + duration ms :=
    World.answer_pause (keeps.pause ms w.state).1 (keeps.pause ms w.state).2
  have same := Number.le_refl (Number.le_iff.1 (Number.le_add hw nonneg)).1
  constructor
  · rw [time]
    exact hw.add (Clock.zero_le_duration ms)
  · rw [time]
    exact Number.le_add hw (Clock.zero_le_duration ms)
  · rw [time]
    exact Number.add_le_add hw hw same (Clock.zero_le_duration ms) (Clock.duration_le nonneg h)

/-- What a stage does from a world on, given the worlds in which it calls its provider: each call is
under the limit `timeout`, and up to `n` of them are repetitions, after a pause of `maxDelay` at
most. -/
structure Ends (env : Environment Call.interface σ) (c : RemoteStage) (timeout maxDelay : Number)
    (n : Nat) (w : World Call.interface σ) (starts : List (World Call.interface σ)) : Prop where
  attempts : 0 < starts.length ∧ starts.length ≤ n + 1
  calls : (c.run.run.record (World.answer env) w).filter isRemote =
    starts.map (c.made env (some timeout))
  own : ∀ u ∈ starts, env.InTime (c.call (some timeout)) u →
    (c.ask env (some timeout) u).1 =
      c.own env (some timeout) (World.settling env (c.call (some timeout)) u)
  timed_out : ∀ u ∈ starts, ¬env.InTime (c.call (some timeout)) u →
    (c.ask env (some timeout) u).1 = .error (.failure (.timeout c.operation (some timeout)))
  due : ∀ u ∈ starts, ∀ settles l late,
    (env.wait (c.call (some timeout)) u.state).1 = .service settles l late →
      (env.InTime (c.call (some timeout)) u ↔
        ∃ t, settles = some t ∧ (u.time + t).le (u.time + limitDuration (some timeout)) = true)
  due_of_le : ∀ u ∈ starts, ∀ t l late,
    (env.wait (c.call (some timeout)) u.state).1 = .service (some t) l late →
      t.le timeout = true → env.InTime (c.call (some timeout)) u
  repeated : ∀ j u, starts[j]? = some u → (j + 1 < starts.length ↔
    (∃ e, (c.ask env (some timeout) u).1 = .error e ∧ e.hasText = true ∧
      e.isTransient = true) ∧ j < n)
  retried : ∀ j u, starts[j]? = some u → ¬env.InTime (c.call (some timeout)) u → j < n →
    j + 1 < starts.length
  result : ∃ u, starts.getLast? = some u ∧ (World.run env c.run.run w).1 =
    c.result ((c.ask env (some timeout) u).1.mapError Raised.reported)
  never_late : ∀ a, (World.run env c.run.run w).1 = .ok a →
    ∃ u, starts.getLast? = some u ∧ env.InTime (c.call (some timeout)) u
  later : w.time.le (World.run env c.run.run w).2.time = true
  within : (World.run env c.run.run w).2.time.le (latest timeout maxDelay n w.time) = true
  within_whole : ∀ start t d : Nat, w.time = .finite start → timeout = .finite t →
    maxDelay = .finite d → start + ((n + 1) * t + n * d) < 2 ^ 53 →
      ((World.run env c.run.run w).2.time - w.time).le
        (.finite ((n + 1) * t + n * d : Nat)) = true

/-- Whatever its provider does, a stage ends by a time that its policy decides. -/
theorem ends_by_its_policy {timeout maxDelay initial multiplier : Number} {n : Nat}
    (keeps : env.KeepsLimits) (hw : w.time.Double) (waits : Number.le 0 timeout = true)
    (rests : Number.le 0 maxDelay = true)
    (policy : c.policy = some ⟨some timeout, ⟨.finite n, initial, maxDelay, multiplier⟩⟩) :
    ∃ starts, Ends env c timeout maxDelay n w starts := by
  let p : RetryPolicy := ⟨.finite n, initial, maxDelay, multiplier⟩
  let r : RetryRule := p.rule
  have limit : r.maxAttempts = .finite n := rfl
  have remote : c.run.run =
      (r.runFrom Engine.pause (c.perform (some timeout)) 0 none (n - 0 + 1)).bind c.finish := by
    rw [run_eq policy]
    change (r.runFrom Engine.pause (c.perform (some timeout)) 0 none r.attempts).bind _ = _
    rw [RetryRule.attempts_of_limit limit]
    rfl
  obtain ⟨starts, x, t, course, ended⟩ :=
    RetryRule.course_runFrom (World.answer env) w none limit (Nat.zero_le n)
  obtain ⟨value, time, uncalled⟩ := finished (w := t) keeps c (x.mapError Raised.reported)
  have ran : World.run env c.run.run w =
      (c.finish (x.mapError Raised.reported)).eval (World.answer env) t := by
    rw [World.run, remote, eval_bind, ended]
  have limited : (limitDuration (some timeout)).le timeout = true :=
    Clock.duration_le waits (Number.lt_irrefl timeout)
  have attempted (u : World Call.interface σ) (hu : u.time.Double) :
      World.Moves timeout u ((c.perform (some timeout)).eval (World.answer env) u).2 :=
    (asked keeps c (some timeout) hu).2.2.mono hu (Clock.zero_le_duration timeout) limited
  have waited (k : Nat) (e : Raised) (u : World Call.interface σ) (hu : u.time.Double) :
      World.Moves maxDelay u ((Engine.pause (r.delay k e)).eval (World.answer env) u).2 :=
    paused keeps hu rests (p.pauses_delay k e).bounded
  obtain ⟨doubles, double, later, within⟩ :=
    Clock.moves_course waits rests course attempted waited hw (Nat.zero_le n)
  obtain ⟨u, last, outcome⟩ := course.outcome
  have timed_out (u : World Call.interface σ) (hu : u ∈ starts)
      (late : ¬env.InTime (c.call (some timeout)) u) :
      (c.ask env (some timeout) u).1 = .error (.failure (.timeout c.operation (some timeout))) :=
    (asked keeps c (some timeout) (doubles u hu)).2.1 late
  have repeated (j : Nat) (u : World Call.interface σ) (hu : starts[j]? = some u) :
      j + 1 < starts.length ↔ (∃ e, (c.ask env (some timeout) u).1 = .error e ∧ e.hasText = true ∧
        e.isTransient = true) ∧ j < n := by
    rw [course.follows_iff hu, RetryRule.repeats_iff, Nat.zero_add]
    rfl
  have ended_with : (World.run env c.run.run w).1 =
      c.result ((c.ask env (some timeout) u).1.mapError Raised.reported) := by
    rw [ran, value, ask, outcome]
  refine ⟨starts, ?attempts, ?calls, ?own, timed_out, ?due, ?due_of_le, repeated, ?retried,
    ⟨u, last, ended_with⟩, ?never_late, ?later, ?within, ?within_whole⟩
  case attempts =>
    exact ⟨(List.getElem?_eq_some_iff.1 course.head).1, course.length_le (Nat.zero_le n)⟩
  case calls =>
    rw [remote, record_bind, List.filter_append, ended, uncalled, List.append_nil]
    exact course.filter_record limit (Nat.zero_le n) (filter_perform c (some timeout))
      fun _ _ => rfl
  case own => exact fun u hu => (asked keeps c (some timeout) (doubles u hu)).1
  case due => exact fun u _ settles l late served => inTime_iff keeps served
  case due_of_le => exact fun u hu t l late served => inTime_of_le keeps (doubles u hu) waits served
  case retried =>
    intro j u hu late room
    have failed := timed_out u (List.mem_of_getElem? hu) late
    exact (repeated j u hu).2 ⟨⟨_, failed, rfl, Raised.isTransient_timeout _ _⟩, room⟩
  case never_late =>
    intro a succeeded
    refine ⟨u, last, ?_⟩
    by_contra late
    rw [ended_with, timed_out u (List.mem_of_getLast? last) late] at succeeded
    obtain ⟨f, failed⟩ := c.result_error (.failure (.timeout c.operation (some timeout)))
    cases failed.symm.trans succeeded
  case later =>
    rw [ran, time]
    exact later
  case within =>
    rw [ran, time]
    exact within
  case within_whole =>
    rintro start t d started rfl rfl small
    rw [ran, time, started]
    rw [started] at later within
    rw [Nat.sub_zero, Clock.latest_natCast n small] at within
    exact Number.sub_natCast_le double later within (by omega)

end RemoteStage

namespace Bench

theorem Script.wait_within {α : Type} (limit : Option Number) (operation : String) (s : Script α) :
    (s.wait limit operation).1.Within (limitDuration limit)
      (.error (.failure (.timeout operation limit))) := by
  unfold wait
  cases s.delays with
  | nil => trivial
  | cons d rest =>
    refine ⟨rfl, rfl, fun t settled => ?_⟩
    obtain ⟨ms, -, rfl⟩ := Option.map_eq_some_iff.1 settled
    exact Clock.zero_le_duration ms

theorem CodedScripts.wait_within {α : Type} (isAbout : String → Bool) (limit : Option Number)
    (operation : String) (s : CodedScripts α) :
    (s.wait isAbout limit operation).1.Within (limitDuration limit)
      (.error (.failure (.timeout operation limit))) :=
  (s.get (s.codeOf isAbout)).wait_within limit operation

theorem keepsLimits : environment.KeepsLimits where
  embedding text limit b := b.embedding.wait_within (queryIsAbout text) limit embeddingOperation
  search _ _ _ _ limit b := by
    have scripted := b.search.wait_within limit searchOperation
    dsimp only [environment, wait]
    generalize (b.search.wait limit searchOperation).1 = wait at scripted ⊢
    cases wait with
    | nothing => trivial
    | pause t => cases scripted
    | service settles l late =>
      obtain ⟨rfl, rfl, later⟩ := scripted
      exact ⟨rfl, rfl, later⟩
  completion messages _ limit b := by
    have scripted := b.model.wait_within (promptIsAbout messages) limit modelOperation
    dsimp only [environment, wait]
    generalize (b.model.wait (promptIsAbout messages) limit modelOperation).1 = wait at scripted ⊢
    cases wait with
    | nothing => trivial
    | pause t => cases scripted
    | service settles l late =>
      obtain ⟨rfl, rfl, later⟩ := scripted
      exact ⟨rfl, rfl, later⟩
  called c remote := by cases c <;> first | rfl | cases remote
  pause _ _ := ⟨rfl, rfl⟩
  count _ := rfl

def delayed (delays : List (Option Number)) : BenchWorld :=
  { state := { start (.ofMillis 0) with
      embedding := ⟨{ fallback := .ok (unitVector 4), delays }, []⟩ } }

end Bench

namespace RemoteStage

def embedUnder (limit pause : Number) : RemoteStage :=
  .embed
    { embeddingDimensions := some 4, embedding := some ⟨some limit, ⟨2, pause, pause, 1⟩⟩ } "q"

theorem ends_by_its_policy_hung :
    Bench.environment.KeepsLimits ∧ Number.Double 0 ∧
    (World.run Bench.environment (embedUnder 1000 150).run.run
      (Bench.delayed [none, some 1000])).1.toOption.isSome = true ∧
    ∃ starts, Ends Bench.environment (embedUnder 1000 150) 1000 150 2
      (Bench.delayed [none, some 1000]) starts := by
  have double : Number.Double 0 := Number.double_natCast (n := 0) (by decide)
  exact ⟨Bench.keepsLimits, double, by decide +kernel,
    ends_by_its_policy Bench.keepsLimits double (by decide +kernel) (by decide +kernel) rfl⟩

/-- Every addition on the clock is rounded. So three limits of one millisecond and two pauses of a
fifth take longer than their sum, and an answer that the limit precedes by less than the clock shows
is in time: it is the only one of three calls that is answered at all. -/
theorem rounding_shows :
    let stage := embedUnder 1 (Number.nearest (1 / 5))
    let hung := World.run Bench.environment stage.run.run (Bench.delayed [none, none, none])
    let late := Number.nearest (1 + 1 / 2 ^ 52)
    let answered :=
      World.run Bench.environment stage.run.run (Bench.delayed [none, some late, none])
    ((2 + 1) * 1 + 2 * (Number.nearest (1 / 5)).value < hung.2.time.value ∧
      ((2 + 1) * 1 + 2 * Number.nearest (1 / 5)).lt hung.2.time = true) ∧
    Number.lt 1 late = true ∧ answered.1.toOption.isSome = true := by
  decide +kernel

end RemoteStage
end VisaEligibility
