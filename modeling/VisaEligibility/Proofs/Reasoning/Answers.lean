import VisaEligibility.Proofs.Reasoning.Calls
import VisaEligibility.Check.Run
/-!
The answers of the model in histories. Reasoning is completed over exactly the histories in which
the model has answered; the answer it keeps is that answer, and what it cites are excerpts of the
chunks that were found.
-/
set_option autoImplicit false

namespace VisaEligibility

open Program

def answer? : Exchange Call.interface → Option ModelAnswer
  | ⟨.completion _ _ _, .ok a⟩ => some a
  | _ => none

def answers (h : History Call.interface) : List ModelAnswer := h.filterMap answer?

def finding? : Exchange Call.interface → Option (List Chunk)
  | ⟨.search _ _ _ _ _, .ok chunks⟩ => some chunks
  | _ => none

def findings (h : History Call.interface) : List (List Chunk) := h.filterMap finding?

theorem answers_append (h h' : History Call.interface) :
    answers (h ++ h') = answers h ++ answers h' := List.filterMap_append

theorem findings_append (h h' : History Call.interface) :
    findings (h ++ h') = findings h ++ findings h' := List.filterMap_append

namespace Retrieval

variable {α β : Type} {h : History Call.interface} {f : Exchange Call.interface → Option β}

theorem filterMap_of_remote {g : α → Option β} {policy : CallPolicy}
    {call : Option Number → Engine (Except Raised α)} {x : Except Raised α}
    (hp : ∀ ms, f ⟨.pause ms, ()⟩ = none)
    (hc : ∀ limit h x, Returns (call limit) h x → h.filterMap f = (x.toOption.bind g).toList)
    (hr : Returns (remote policy call) h x) : h.filterMap f = (x.toOption.bind g).toList := by
  refine RetryRule.filterMap_of_run ?_ (hc policy.timeoutMs) hr
  intro ms h u hu
  obtain rfl := returns_perform.1 hu
  simp [hp]

theorem answers_of_embedding {policy : CallPolicy} {text : String}
    {x : Except Raised (List Number)} (hr : Returns (remote policy (Engine.embedding text)) h x) :
    answers h = [] ∧ findings h = [] := by
  have unanswered := filterMap_of_remote (f := answer?) (g := fun _ => none) (fun _ => rfl) ?_ hr
  have unfound := filterMap_of_remote (f := finding?) (g := fun _ => none) (fun _ => rfl) ?_ hr
  · exact ⟨by simpa [answers] using unanswered, by simpa [findings] using unfound⟩
  · intro limit h x hx
    obtain rfl := returns_perform.1 hx
    simp [finding?]
  · intro limit h x hx
    obtain rfl := returns_perform.1 hx
    simp [answer?]

theorem answers_of_search {policy : CallPolicy} {vector : List Number} {filters : ChunkFilters}
    {topK minSimilarity : Number} {x : Except Raised (List Chunk)}
    (hr : Returns (remote policy (Engine.search vector filters topK minSimilarity)) h x) :
    answers h = [] ∧ findings h = x.toOption.toList := by
  have unanswered := filterMap_of_remote (f := answer?) (g := fun _ => none) (fun _ => rfl) ?_ hr
  have found := filterMap_of_remote (f := finding?) (g := some) (fun _ => rfl) ?_ hr
  · exact ⟨by simpa [answers] using unanswered, by simpa [findings] using found⟩
  · intro limit h x hx
    obtain rfl := returns_perform.1 hx
    cases x <;> rfl
  · intro limit h x hx
    obtain rfl := returns_perform.1 hx
    simp [answer?]

theorem returns_staged {stage : AiStage} {activity : String} {call : Engine (Except Raised α)}
    {x : Except Failure α} (hr : Returns (staged stage activity call).run h x) :
    ∃ y, Returns call h y ∧ x = y.mapError (.ofActivity stage activity) := by
  obtain ⟨h₁, y, h₂, rfl, hy, hd⟩ := returns_bind.1 hr
  cases y <;>
  · obtain ⟨rfl, rfl⟩ := returns_done.1 hd
    exact ⟨_, by simpa using hy, rfl⟩

theorem returns_policyOf_bind {setting : String} {policy : Option CallPolicy}
    {k : CallPolicy → Attempted α} {x : Except Failure α}
    (hr : Returns (policyOf setting policy >>= k).run h x) :
    (h = [] ∧ x = .error (.noPolicy setting)) ∨
      ∃ p, policy = some p ∧ Returns (k p).run h x := by
  cases policy with
  | none => exact .inl (returns_done.1 hr)
  | some p => exact .inr ⟨p, rfl, hr⟩

theorem answers_of_embed {s : RetrievalSettings} {text : String}
    {x : Except Failure (List Number)} (hr : Returns (embed s text).run h x) :
    answers h = [] ∧ findings h = [] := by
  rcases returns_policyOf_bind hr with ⟨rfl, -⟩ | ⟨p, -, hr⟩
  · exact ⟨rfl, rfl⟩
  · have embedded {h : History Call.interface} {y : Except Failure (List Number)}
        (hs : Returns (staged .embedding "Embedding generation"
          (remote p (Engine.embedding text))).run h y) : answers h = [] ∧ findings h = [] := by
      obtain ⟨z, hz, -⟩ := returns_staged hs
      exact answers_of_embedding hz
    rcases Attempt.returns_bind.1 hr with ⟨e, -, hs⟩ | ⟨h₁, v, h₂, rfl, hs, hd⟩
    · exact embedded hs
    · obtain ⟨rfl, -⟩ := returns_done.1 hd
      rw [List.append_nil]
      exact embedded hs

theorem answers_of_ranked {s : RetrievalSettings} {vector : List Number} {filters : ChunkFilters}
    {topK minSimilarity : Number} {x : Except Failure (List Chunk)}
    (hr : Returns (search s vector filters topK minSimilarity).run h x) :
    answers h = [] ∧ ∀ chunks, x = .ok chunks →
      ∃ found, findings h = [found] ∧ chunks = Chunk.rank found topK minSimilarity := by
  rcases returns_policyOf_bind hr with ⟨rfl, rfl⟩ | ⟨p, -, hr⟩
  · exact ⟨rfl, fun chunks hc => nomatch hc⟩
  · rcases Attempt.returns_bind.1 hr with ⟨e, rfl, hs⟩ | ⟨h₁, raw, h₂, rfl, hs, hd⟩
    · obtain ⟨y, hy, -⟩ := returns_staged hs
      exact ⟨(answers_of_search hy).1, fun chunks hc => nomatch hc⟩
    · obtain ⟨rfl, rfl⟩ := Attempt.returns_pure.1 hd
      obtain ⟨y, hy, he⟩ := returns_staged hs
      obtain ⟨unanswered, found⟩ := answers_of_search hy
      cases y with
      | error e => cases he
      | ok chunks =>
        cases he
        rw [List.append_nil]
        exact ⟨unanswered, fun chunks hc => ⟨raw, found, (Except.ok.inj hc).symm⟩⟩

theorem answers_of_retrieve {s : RetrievalSettings} {facts : Facts} {filters : ChunkFilters}
    {x : Except Failure Context} (hr : Returns (retrieve s facts filters).run h x) :
    answers h = [] ∧ ∀ context, x = .ok context →
      ∃ found, findings h = [found] ∧ context.chunks = Chunk.rank found s.topK s.minSimilarity := by
  rcases Attempt.returns_bind.1 hr with ⟨e, rfl, hq⟩ | ⟨h₁, q, h₂, rfl, hq, ht⟩
  · obtain ⟨rfl, -⟩ := returns_done.1 hq
    exact ⟨rfl, fun context hc => nomatch hc⟩
  obtain ⟨rfl, -⟩ := returns_done.1 hq
  rcases Attempt.returns_bind.1 ht with ⟨e, rfl, he⟩ | ⟨h₃, v, h₄, rfl, he, hn⟩
  · exact ⟨(answers_of_embed he).1, fun context hc => nomatch hc⟩
  obtain ⟨unanswered, unfound⟩ := answers_of_embed he
  rcases Attempt.returns_bind.1 hn with ⟨e, rfl, hs⟩ | ⟨h₅, chunks, h₆, rfl, hs, hd⟩
  · refine ⟨?_, fun context hc => nomatch hc⟩
    rw [List.nil_append, answers_append, unanswered, (answers_of_ranked hs).1]
    rfl
  obtain ⟨rfl, rfl⟩ := Attempt.returns_pure.1 hd
  obtain ⟨silent, ranked⟩ := answers_of_ranked hs
  obtain ⟨found, hf, rfl⟩ := ranked chunks rfl
  rw [List.append_nil, List.nil_append, answers_append, findings_append, unanswered, unfound,
    silent, hf]
  refine ⟨rfl, fun context hc => ?_⟩
  cases hc
  exact ⟨found, rfl, rfl⟩

end Retrieval

namespace Reasoning

open Retrieval

variable {h : History Call.interface}

theorem answers_of_consult {s : ReasoningSettings} {p : Prompt} {x : Except Failure ModelAnswer}
    (hr : Returns (consult s p).run h x) : answers h = x.toOption.toList ∧ findings h = [] := by
  rcases returns_policyOf_bind hr with ⟨rfl, rfl⟩ | ⟨policy, -, hr⟩
  · exact ⟨rfl, rfl⟩
  obtain ⟨h₁, y, h₂, rfl, hy, ht⟩ := returns_bind.1 hr
  have answered := filterMap_of_remote (f := answer?) (g := some) (fun _ => rfl) ?_ hy
  have unfound := filterMap_of_remote (f := finding?) (g := fun _ => none) (fun _ => rfl) ?_ hy
  · rw [answers_append, findings_append, answers, findings, answered, unfound]
    cases y <;>
    · obtain ⟨h₃, u, h₄, rfl, hc, hd⟩ := returns_bind.1 ht
      obtain rfl := returns_perform.1 hc
      obtain ⟨rfl, rfl⟩ := returns_done.1 hd
      exact ⟨rfl, by simp [findings, finding?]⟩
  · intro limit h x hx
    obtain rfl := returns_perform.1 hx
    simp [finding?]
  · intro limit h x hx
    obtain rfl := returns_perform.1 hx
    cases x <;> rfl

/-- The answer of the model over a history, with the chunks found for it. -/
structure Answered (s : RetrievalSettings) (h : History Call.interface) (a : ModelAnswer)
    (excerpts : List Excerpt) : Prop where
  answers_eq : answers h = [a]
  cited : ∃ found, findings h = [found] ∧
    excerpts = Response.excerpts a.text (Chunk.rank found s.topK s.minSimilarity)

theorem Answered.congr {s : RetrievalSettings} {h' : History Call.interface} {a : ModelAnswer}
    {excerpts : List Excerpt} (ha : Answered s h a excerpts) (same : answers h' = answers h)
    (same' : findings h' = findings h) : Answered s h' a excerpts := by
  refine ⟨same.trans ha.answers_eq, ?_⟩
  rw [same']
  exact ha.cited

/-- An assessment of the model's answer over a history, with the chunks found for it. -/
structure Assessed (retrieval : RetrievalSettings) (s : ReasoningSettings)
    (h : History Call.interface) (c : Assessment) : Prop where
  answered : answers h = [c.answer]
  read : ∃ found p, findings h = [found] ∧ c = ofAnswer s.noContextConfidenceCap
    (Chunk.rank found retrieval.topK retrieval.minSimilarity) p c.answer

namespace Assessed

variable {retrieval : RetrievalSettings} {s : ReasoningSettings} {c : Assessment}

theorem congr {h' : History Call.interface} (ha : Assessed retrieval s h c)
    (same : answers h' = answers h) (same' : findings h' = findings h) :
    Assessed retrieval s h' c := by
  refine ⟨same.trans ha.answered, ?_⟩
  rw [same']
  exact ha.read

theorem cited (ha : Assessed retrieval s h c) : Answered retrieval h c.answer c.excerpts := by
  obtain ⟨found, p, hf, hc⟩ := ha.read
  exact ⟨ha.answered, found, hf, congrArg Assessment.excerpts hc⟩

theorem concluded (ha : Assessed retrieval s h c) :
    c.verdict.conclusion = Response.conclusion c.answer.text := by
  obtain ⟨found, p, -, hc⟩ := ha.read
  rw [congrArg Assessment.verdict hc]
  simp only [ofAnswer]
  split <;> rfl

end Assessed

theorem answers_of_complete {retrieval : RetrievalSettings} {s : ReasoningSettings}
    {i : AssessmentInput} {x : Except Failure Assessment}
    (hr : Returns (complete retrieval s i).run h x) :
    (∀ e, x = .error e → answers h = []) ∧ ∀ c, x = .ok c → Assessed retrieval s h c := by
  rcases Attempt.returns_bind.1 hr with ⟨e, rfl, hc⟩ | ⟨h₁, context, h₂, rfl, hc, ht⟩
  · exact ⟨fun _ _ => (answers_of_retrieve hc).1, fun c hc => nomatch hc⟩
  obtain ⟨unanswered, retrieved⟩ := answers_of_retrieve hc
  obtain ⟨found, hf, ranked⟩ := retrieved context rfl
  rcases Attempt.returns_bind.1 ht with ⟨e, rfl, hp⟩ | ⟨h₃, p, h₄, rfl, hp, hn⟩
  · obtain ⟨rfl, -⟩ := returns_done.1 hp
    rw [List.append_nil]
    exact ⟨fun _ _ => unanswered, fun c hc => nomatch hc⟩
  obtain ⟨rfl, -⟩ := returns_done.1 hp
  rw [List.nil_append]
  rcases Attempt.returns_bind.1 hn with ⟨e, rfl, ha⟩ | ⟨h₅, a, h₆, rfl, ha, hd⟩
  · obtain ⟨failed, -⟩ := answers_of_consult ha
    refine ⟨fun _ _ => ?_, fun c hc => nomatch hc⟩
    rw [answers_append, unanswered, failed]
    rfl
  obtain ⟨rfl, rfl⟩ := Attempt.returns_pure.1 hd
  obtain ⟨answered, unfound⟩ := answers_of_consult ha
  rw [List.append_nil]
  refine ⟨fun e he => (nomatch he), fun c hc => ?_⟩
  cases hc
  refine ⟨?_, found, p, ?_, ?_⟩
  · rw [answers_append, unanswered, answered]
    rfl
  · rw [findings_append, hf, unfound]
    rfl
  · rw [← ranked]
    rfl

theorem answers_of_run {retrieval : RetrievalSettings} {s : ReasoningSettings}
    {i : AssessmentInput} {x : Reasoning} (hr : Returns (run retrieval s i).run h (.ok x)) :
    (∀ stage e, x = .unavailable stage e → answers h = []) ∧
      ∀ c, x = .completed c → Assessed retrieval s h c := by
  obtain ⟨h₁, y, h₂, rfl, hy, ht⟩ := returns_bind.1 hr
  obtain ⟨failed, completed⟩ := answers_of_complete hy
  cases y with
  | error f =>
    dsimp only at ht
    split at ht
    · obtain ⟨h₃, u, h₄, rfl, hc, hd⟩ := returns_bind.1 ht
      obtain rfl := returns_perform.1 hc
      obtain ⟨rfl, he⟩ := returns_done.1 hd
      cases he
      refine ⟨fun _ _ _ => ?_, fun c hc => (nomatch hc)⟩
      rw [answers_append, failed f rfl]
      rfl
    · cases (returns_done.1 ht).2
  | ok c =>
    obtain ⟨h₃, u, h₄, rfl, hc, hd⟩ := returns_bind.1 ht
    obtain rfl := returns_perform.1 hc
    obtain ⟨rfl, he⟩ := returns_done.1 hd
    cases he
    refine ⟨fun _ _ he => (nomatch he), fun c' hc => ?_⟩
    cases hc
    refine (completed c rfl).congr ?_ ?_
    · rw [answers_append]
      exact List.append_nil _
    · rw [findings_append]
      exact List.append_nil _

end Reasoning

namespace Check

variable {s : EngineSettings} {r : CheckRequest} {facts : Facts} {rule : RuleEvaluation}
  {h : History Call.interface} {ai : AiPart}

/-- Reasoning is completed where the model has answered, and only there. -/
theorem answers_of_askModel (hr : Returns (askModel s r facts rule).run h (.ok ai)) :
    (ai.completed = none → answers h = []) ∧
      ∀ c, ai.completed = some c → Reasoning.Assessed s.retrieval s.reasoning h c := by
  unfold askModel at hr
  split at hr
  · obtain ⟨h₁, x, h₂, rfl, hx, hd⟩ := returns_bind.1 hr
    cases x with
    | error f => cases (returns_done.1 hd).2
    | ok x =>
      obtain ⟨rfl, he⟩ := returns_done.1 hd
      cases he
      obtain ⟨failed, completed⟩ := Reasoning.answers_of_run hx
      rw [List.append_nil]
      cases x with
      | completed c =>
        refine ⟨fun hc => (nomatch hc), fun c' hc => ?_⟩
        cases hc
        exact completed c rfl
      | unavailable stage e => exact ⟨fun _ => failed stage e rfl, fun c hc => (nomatch hc)⟩
  · obtain ⟨rfl, hx⟩ := returns_done.1 hr
    cases hx
    exact ⟨fun _ => rfl, fun c hc => (nomatch hc)⟩

theorem completed_of_unavailable (hr : Returns (askModel s r facts rule).run h (.ok ai))
    (hs : ai.status = .unavailable) : ai.completed = none := by
  unfold askModel at hr
  split at hr
  · obtain ⟨h₁, x, h₂, -, -, hd⟩ := returns_bind.1 hr
    cases x with
    | error f => cases (returns_done.1 hd).2
    | ok x =>
      cases (returns_done.1 hd).2
      cases x with
      | completed c => cases hs
      | unavailable stage e => rfl
  · cases (returns_done.1 hr).2
    rfl

end Check
end VisaEligibility
