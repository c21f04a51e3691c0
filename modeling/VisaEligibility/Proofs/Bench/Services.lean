import VisaEligibility.Bench.Basic
import VisaEligibility.Proofs.Program.Histories
/-!
The services of a bench. A reply is the one of the limit or has come in time; the limit is always a
failure. A search finds the stored chunks above its floor that meet its filters, and no call changes
which chunks are stored.
-/
set_option autoImplicit false

namespace VisaEligibility

open Program

theorem Program.exists_of_mem_record {I : Interface} {σ α β : Type} {answer : Answers I σ}
    {f : σ → β} (keeps : ∀ c s, f (answer c s).2 = f s) {p : Program I α} {s : σ} {x : Exchange I}
    (hx : x ∈ record answer p s) : ∃ t, f t = f s ∧ x = ⟨x.call, (answer x.call t).1⟩ := by
  induction p generalizing s with
  | done a => cases hx
  | call c k ih =>
    rcases List.mem_cons.1 hx with rfl | hx
    · exact ⟨s, rfl, rfl⟩
    · obtain ⟨t, same, made⟩ := ih _ hx
      exact ⟨t, same.trans (keeps c s), made⟩

namespace Clock

variable {I : Interface} {σ β : Type} {env : Environment I σ} {f : σ → β}

/-- A wait that ends with the reply waited for and not at the limit. -/
def Wait.InTime {ρ : Type} (now : Time) : Wait ρ → Prop
  | .nothing => True
  | .pause _ => True
  | .service settles limit _ => ∃ t, settles = some t ∧ (now + t).le (now + limit) = true

/-- A part of the state that no call changes. -/
structure Environment.Keeps (env : Environment I σ) (f : σ → β) : Prop where
  wait : ∀ c s, f (env.wait c s).2 = f s
  reply : ∀ c s, f (env.reply c s).2 = f s

namespace World

theorem keeps_settle (hf : env.Keeps f) (t : Time) (es : List (Time × I.Call)) (s : σ) :
    f (settle env t es s).2 = f s := by
  induction es generalizing s with
  | nil => rfl
  | cons e es ih =>
    unfold settle
    split
    · exact (ih _).trans (hf.reply e.2 s)
    · rfl

/-- A call is answered by its reply, in time and in a state that keeps what no call changes, or by
the reply of its limit. -/
theorem answer_cases (hf : env.Keeps f) (c : I.Call) (w : World I σ) :
    f (answer env c w).2.state = f w.state ∧
      ((∃ s, f s = f w.state ∧ (answer env c w).1 = (env.reply c s).1 ∧
          (env.onTheSpot c = true ∨ (env.wait c w.state).1.InTime w.time)) ∨
        ∃ settles limit, (env.wait c w.state).1 = .service settles limit (answer env c w).1) := by
  have moved (t : Time) (w : World I σ) : f (moveTo env t w).state = f w.state :=
    keeps_settle hf t w.abandoned w.state
  have waited := hf.wait c w.state
  unfold answer
  split
  · rename_i spot
    exact ⟨hf.reply c w.state, .inl ⟨w.state, rfl, rfl, .inl spot⟩⟩
  · rcases hw : env.wait c w.state with ⟨wait, s⟩
    rw [hw] at waited
    have later (t : Time) :
        f (moveTo env t { w with state := s }).state = f w.state := (moved _ _).trans waited
    cases wait with
    | nothing => exact ⟨(hf.reply c s).trans waited, .inl ⟨s, waited, rfl, .inr trivial⟩⟩
    | pause t => exact ⟨(hf.reply c _).trans (later _), .inl ⟨_, later _, rfl, .inr trivial⟩⟩
    | service settles limit late =>
      cases settles with
      | none => exact ⟨later _, .inr ⟨none, limit, rfl⟩⟩
      | some t =>
        dsimp only
        split
        · rename_i due
          exact ⟨(hf.reply c _).trans (later _), .inl ⟨_, later _, rfl, .inr ⟨t, rfl, due⟩⟩⟩
        · exact ⟨later _, .inr ⟨some t, limit, rfl⟩⟩

end World
end Clock

def Searches (chunks : List Chunk) (h : History Call.interface) : Prop :=
  ∀ vector filters topK minSimilarity limit found,
    ⟨.search vector filters topK minSimilarity limit, .ok found⟩ ∈ h →
      found = chunks.filter fun c => minSimilarity.le c.similarity && c.meets filters

namespace Bench

theorem Script.wait_cases {α : Type} (limit : Option Number) (operation : String)
    (s : Script α) : (s.wait limit operation).1 = .nothing ∨
      ∃ settles e, (s.wait limit operation).1 =
        .service settles (Clock.limitDuration limit) (.error e) := by
  unfold wait
  cases s.delays with
  | nil => exact .inl rfl
  | cons d rest => exact .inr ⟨_, _, rfl⟩

theorem wait_completion (messages : List Message) (options : ModelOptions)
    (limit : Option Number) (b : Bench) :
    (wait (.completion messages options limit) b).1 = .nothing ∨
      ∃ settles e, (wait (.completion messages options limit) b).1 =
        .service settles (Clock.limitDuration limit) (.error e) := by
  have scripted := (b.model.get (b.model.codeOf (promptIsAbout messages))).wait_cases limit
    modelOperation
  dsimp only [wait, CodedScripts.wait]
  rcases scripted with none | ⟨settles, e, served⟩
  · rw [none]
    exact .inl rfl
  · rw [served]
    exact .inr ⟨settles, e, rfl⟩

theorem wait_search (vector : List Number) (filters : ChunkFilters)
    (topK minSimilarity : Number) (limit : Option Number) (b : Bench) :
    (wait (.search vector filters topK minSimilarity limit) b).1 = .nothing ∨
      ∃ settles e, (wait (.search vector filters topK minSimilarity limit) b).1 =
        .service settles (Clock.limitDuration limit) (.error e) := by
  dsimp only [wait]
  rcases b.search.wait_cases limit searchOperation with none | ⟨settles, e, served⟩
  · rw [none]
    exact .inl rfl
  · rw [served]
    exact .inr ⟨settles, e, rfl⟩

theorem inTime_of_answered {messages : List Message} {options : ModelOptions}
    {limit : Option Number} {w : BenchWorld} {a : ModelAnswer}
    (answered : (Clock.World.answer environment (.completion messages options limit) w).1 = .ok a) :
    (wait (.completion messages options limit) w.state).1.InTime w.time := by
  have keeps : environment.Keeps fun _ => () := ⟨fun _ _ => rfl, fun _ _ => rfl⟩
  rcases (Clock.World.answer_cases keeps (.completion messages options limit) w).2 with
    ⟨s, -, -, spot | inTime⟩ | ⟨settles, l, late⟩
  · cases spot
  · exact inTime
  · rw [answered] at late
    rcases wait_completion messages options limit w.state with none | ⟨settles', e, served⟩
    · cases none.symm.trans late
    · cases served.symm.trans late

theorem keeps_chunks : environment.Keeps (·.chunks) := by
  constructor
  · intro c b
    cases c <;> rfl
  · intro c b
    cases c with
    | facts caseId =>
      simp only [environment, reply]
      split <;> rfl
    | search vector filters topK minSimilarity limit =>
      simp only [environment, reply]
      split
      · rfl
      · split <;> rfl
    | _ => rfl

theorem found_of_reply {vector : List Number} {filters : ChunkFilters}
    {topK minSimilarity : Number} {limit : Option Number} {b : Bench} {found : List Chunk}
    (replied : (reply (.search vector filters topK minSimilarity limit) b).1 = .ok found) :
    found = b.chunks.filter fun c => minSimilarity.le c.similarity && c.meets filters := by
  simp only [reply] at replied
  split at replied
  · cases replied
  · split at replied
    · cases replied
    · cases replied
      rfl

theorem searches_record {α : Type} (p : Engine α) (w : BenchWorld) :
    Searches w.state.chunks (record (Clock.World.answer environment) p w) := by
  intro vector filters topK minSimilarity limit found hx
  obtain ⟨t, same, made⟩ := exists_of_mem_record (f := fun w : BenchWorld => w.state.chunks)
    (fun c w => (Clock.World.answer_cases keeps_chunks c w).1) hx
  injection made with _ answered
  rcases (Clock.World.answer_cases keeps_chunks
    (.search vector filters topK minSimilarity limit) t).2 with
    ⟨b, kept, replied, -⟩ | ⟨settles, l, late⟩
  · rw [← same, ← kept]
    exact found_of_reply (replied.symm.trans answered.symm)
  · have late : (wait (.search vector filters topK minSimilarity limit) t.state).1 =
        .service settles l (.ok found) := late.trans (congrArg _ answered.symm)
    rcases wait_search vector filters topK minSimilarity limit t.state with
      none | ⟨settles', e, served⟩
    · cases none.symm.trans late
    · cases served.symm.trans late

end Bench
end VisaEligibility
