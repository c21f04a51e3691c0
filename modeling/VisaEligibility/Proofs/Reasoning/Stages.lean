import VisaEligibility.Proofs.Number.Order
import VisaEligibility.Proofs.Reasoning.Answers
import VisaEligibility.Proofs.Reasoning.Resolution
/-!
The stages of reasoning. Each one calls its own provider alone; the histories of all of them
together are listed by the stage that ends them, with what each stage before it has brought.
-/
set_option autoImplicit false

namespace VisaEligibility

open Program

theorem RetryRule.attempts_eq_zero {r : RetryRule} :
    r.attempts = 0 ↔ Number.le 0 r.maxAttempts = false := by
  unfold attempts
  cases r.maxAttempts with
  | nan => simp [Number.le, Number.lt, Number.order?]
  | infinite negative => cases negative <;> decide
  | negativeZero => decide
  | finite q =>
    cases below : (Number.finite q).lt 0 with
    | true => simpa [below] using (Number.lt_iff.1 below).2.2
    | false => simpa [below] using Number.le_of_not_lt (by simp) (by decide) below

def Call.stage? : Call → Option AiStage
  | .embedding _ _ => some .embedding
  | .search _ _ _ _ _ => some .retrieval
  | .completion _ _ _ => some .model
  | _ => none

def Counter.reasoningName : String := "ai_reasoning_total"

def Call.isOf (stage : AiStage) : Call → Bool
  | .pause _ => true
  | .count c => c.name != Counter.reasoningName
  | c => c.stage? = some stage

def Called (stage : AiStage) (h : History Call.interface) : Prop :=
  ∃ x ∈ h, x.call.stage? = some stage

def reasoningCount? : Exchange Call.interface → Option Counter
  | ⟨.count c, _⟩ => if c.name = Counter.reasoningName then some c else none
  | _ => none

def reasoningCounts (h : History Call.interface) : List Counter := h.filterMap reasoningCount?

theorem reasoningCounts_append (h h' : History Call.interface) :
    reasoningCounts (h ++ h') = reasoningCounts h ++ reasoningCounts h' := List.filterMap_append

section Calls

variable {stage : AiStage} {h h' : History Call.interface}

theorem called_append : Called stage (h ++ h') ↔ Called stage h ∨ Called stage h' := by
  simp only [Called, List.mem_append, or_and_right, exists_or]

theorem not_called_nil : ¬Called stage [] := by simp [Called]

theorem not_called_of_isOf {other : AiStage} (hh : ∀ x ∈ h, x.call.isOf stage = true)
    (differs : other ≠ stage) : ¬Called other h := by
  rintro ⟨x, hx, called⟩
  have own := hh x hx
  generalize x.call = c at called own
  cases c <;> simp_all [Call.stage?, Call.isOf]

theorem reasoningCounts_of_isOf (hh : ∀ x ∈ h, ∃ stage, x.call.isOf stage = true) :
    reasoningCounts h = [] := by
  refine List.filterMap_eq_nil_iff.2 fun x hx => ?_
  obtain ⟨stage, own⟩ := hh x hx
  obtain ⟨c, reply⟩ := x
  cases c <;> first | rfl | exact if_neg (by simpa [Call.isOf] using own)

end Calls

/-- A policy is set, and it admits a first attempt. -/
def Admitted (policy : Option CallPolicy) : Prop :=
  ∃ p, policy = some p ∧ Number.le 0 p.retry.maxAttempts = true

namespace Retrieval

variable {α : Type} {stage : AiStage} {h : History Call.interface}

theorem called_of_remote {policy : CallPolicy} {call : Option Number → Engine (Except Raised α)}
    {x : Except Raised α} (hc : ∀ limit h y, Returns (call limit) h y → Called stage h)
    (hr : Returns (remote policy call) h x) : Called stage h ↔ Admitted (some policy) := by
  have admitted : Admitted (some policy) ↔ policy.retry.rule.attempts ≠ 0 := by
    rw [Ne, RetryRule.attempts_eq_zero, Bool.not_eq_false]
    simp [Admitted, RetryPolicy.rule]
  rw [admitted]
  rcases RetryRule.begins_of_run hr with ⟨none, rfl, -⟩ | ⟨some, h₁, y, h₂, rfl, first⟩
  · exact iff_of_false not_called_nil (not_not_intro none)
  · exact iff_of_true (called_append.2 (.inl (hc _ _ _ first))) some

theorem stage_of_noPolicy {setting : String} {stage : AiStage} :
    (Failure.noPolicy setting).stage? ≠ some stage := by
  cases stage <;> simp [Failure.noPolicy, Failure.stage?, AiStage.kind]

theorem staged_error {own : AiStage} {activity : String} {policy : CallPolicy}
    {call : Option Number → Engine (Except Raised α)} {f : Failure}
    (hr : Returns (staged own activity (remote policy call)).run h (.error f)) :
    f.stage? = some own ∧ ∃ e, Returns (remote policy call) h (.error e) := by
  obtain ⟨y, hy, he⟩ := returns_staged hr
  cases y with
  | ok a => cases he
  | error e =>
    cases he
    exact ⟨Failure.stage?_ofActivity (RetryRule.hasText_of_run hy) own activity, e, hy⟩

/-- The embedding stage has brought a vector: the provider has delivered it, and it is one of the
configured dimensions with finite entries. -/
structure Embedded (s : RetrievalSettings) (h : History Call.interface) (v : List Number) :
    Prop where
  delivered : ∃ query limit, ⟨.embedding query limit, .ok v⟩ ∈ h
  nonempty : v ≠ []
  dimensions : ∃ d, s.embeddingDimensions = some d ∧ Number.same v.length d = true
  finite : ∀ x ∈ v, x.isFinite = true

theorem Embedded.mono {s : RetrievalSettings} {h' : History Call.interface} {v : List Number}
    (embedded : Embedded s h v) (hh : ∀ x ∈ h, x ∈ h') : Embedded s h' v := by
  obtain ⟨query, limit, delivered⟩ := embedded.delivered
  exact { embedded with delivered := ⟨query, limit, hh _ delivered⟩ }

theorem accepted_of_checkVector {dimensions : Option Number} {v w : List Number}
    (hv : checkVector dimensions v = .ok w) : w = v ∧ v ≠ [] ∧
      (∃ d, dimensions = some d ∧ Number.same v.length d = true) ∧
      ∀ x ∈ v, x.isFinite = true := by
  unfold checkVector at hv
  split at hv
  · cases hv
  · rename_i some
    split at hv
    · cases hv
    · rename_i sized
      split at hv
      · cases hv
      · rename_i finite
        cases hv
        refine ⟨rfl, by simpa using some, ?_, by simpa using finite⟩
        cases dimensions with
        | none => simp at sized
        | some d => exact ⟨d, rfl, by simpa using sized⟩

theorem error_of_checkVector {dimensions : Option Number} {v : List Number} {f : Failure}
    (hv : checkVector dimensions v = .error f) : f.stage? = some .embedding := by
  unfold checkVector at hv
  split at hv
  · cases hv
    exact Failure.stage?_ofStage ..
  · split at hv
    · cases hv
      exact Failure.stage?_ofStage ..
    · split at hv
      · cases hv
        exact Failure.stage?_ofStage ..
      · cases hv

section Parts

variable {s : RetrievalSettings} {text : String} {vector : List Number} {filters : ChunkFilters}
  {topK minSimilarity : Number} {f : Failure}

theorem embedded_of_embed {v : List Number} (hr : Returns (embed s text).run h (.ok v)) :
    Embedded s h v := by
  rcases returns_policyOf_bind hr with ⟨-, he⟩ | ⟨policy, -, hr⟩
  · cases he
  rcases Attempt.returns_bind.1 hr with ⟨e, he, -⟩ | ⟨h₁, w, h₂, rfl, hs, hd⟩
  · cases he
  obtain ⟨rfl, hv⟩ := returns_done.1 hd
  obtain ⟨rfl, nonempty, dimensions, finite⟩ := accepted_of_checkVector hv.symm
  obtain ⟨y, hy, he⟩ := returns_staged hs
  cases y with
  | error e => cases he
  | ok w =>
    cases he
    obtain ⟨before, final, rfl, last⟩ := RetryRule.ends_of_run hy
    obtain rfl := returns_perform.1 last
    exact ⟨⟨text, policy.timeoutMs, by simp⟩, nonempty, dimensions, finite⟩

theorem stage_of_embed {stage : AiStage} (hr : Returns (embed s text).run h (.error f))
    (hf : f.stage? = some stage) : stage = .embedding := by
  rcases returns_policyOf_bind hr with ⟨-, he⟩ | ⟨policy, -, hr⟩
  · cases he
    exact absurd hf stage_of_noPolicy
  rcases Attempt.returns_bind.1 hr with ⟨e, he, hs⟩ | ⟨h₁, w, h₂, rfl, -, hd⟩
  · cases he
    exact Option.some.inj (hf.symm.trans (staged_error hs).1)
  · exact Option.some.inj (hf.symm.trans (error_of_checkVector (returns_done.1 hd).2.symm))

theorem found_of_search {chunks : List Chunk}
    (hr : Returns (search s vector filters topK minSimilarity).run h (.ok chunks)) :
    ∃ limit found, ⟨.search vector filters topK minSimilarity limit, .ok found⟩ ∈ h ∧
      findings h = [found] ∧ chunks = Chunk.rank found topK minSimilarity := by
  obtain ⟨one, finding, ranked⟩ := (answers_of_ranked hr).2 chunks rfl
  rcases returns_policyOf_bind hr with ⟨-, he⟩ | ⟨policy, -, hr⟩
  · cases he
  rcases Attempt.returns_bind.1 hr with ⟨e, he, -⟩ | ⟨h₁, found, h₂, rfl, hs, hd⟩
  · cases he
  obtain ⟨y, hy, he⟩ := returns_staged hs
  cases y with
  | error e => cases he
  | ok raw =>
    cases he
    obtain ⟨before, final, rfl, last⟩ := RetryRule.ends_of_run hy
    obtain rfl := returns_perform.1 last
    have delivered : found ∈ findings (before ++ [⟨.search vector filters topK minSimilarity
        policy.timeoutMs, .ok found⟩] ++ h₂) := by
      rw [findings_append, findings_append]
      exact List.mem_append_left _ (List.mem_append_right _ (List.mem_singleton_self found))
    rw [finding] at delivered
    obtain rfl := List.mem_singleton.1 delivered
    exact ⟨policy.timeoutMs, found, by simp, finding, ranked⟩

theorem stage_of_search {stage : AiStage}
    (hr : Returns (search s vector filters topK minSimilarity).run h (.error f))
    (hf : f.stage? = some stage) :
    stage = .retrieval ∧ (Called .retrieval h ↔ Admitted s.search) := by
  rcases returns_policyOf_bind hr with ⟨-, he⟩ | ⟨policy, hp, hr⟩
  · cases he
    exact absurd hf stage_of_noPolicy
  rcases Attempt.returns_bind.1 hr with ⟨e, he, hs⟩ | ⟨h₁, w, h₂, rfl, -, hd⟩
  · cases he
    obtain ⟨own, e, failed⟩ := staged_error hs
    refine ⟨Option.some.inj (hf.symm.trans own), hp ▸ called_of_remote ?_ failed⟩
    intro limit h y hy
    obtain rfl := returns_perform.1 hy
    exact ⟨_, List.mem_singleton_self _, rfl⟩
  · cases (Attempt.returns_pure.1 hd).2

theorem ok_bind {α β : Type} (a : α) (f : α → Attempted β) :
    (ExceptT.mk (return .ok a) >>= f) = f a := rfl

theorem returns_retrieve {facts : Facts} {q : String} {x : Except Failure Context}
    (hq : query facts filters.visaCode = .ok q) :
    Returns (retrieve s facts filters).run h x ↔
      (∃ e, x = .error e ∧ Returns (embed s q).run h (.error e)) ∨
        ∃ h₁ v h₂, h = h₁ ++ h₂ ∧ Returns (embed s q).run h₁ (.ok v) ∧
          ((∃ e, x = .error e ∧
              Returns (search s v filters s.topK s.minSimilarity).run h₂ (.error e)) ∨
            ∃ chunks, x = .ok ⟨q, chunks⟩ ∧
              Returns (search s v filters s.topK s.minSimilarity).run h₂ (.ok chunks)) := by
  rw [retrieve, hq, ok_bind, Attempt.returns_bind]
  refine or_congr_right (exists₃_congr fun h₁ v h₂ => and_congr_right fun _ =>
    and_congr_right fun _ => Attempt.returns_bind.trans (or_congr_right ?_))
  constructor
  · rintro ⟨h₃, chunks, h₄, rfl, searched, hd⟩
    obtain ⟨rfl, rfl⟩ := Attempt.returns_pure.1 hd
    exact ⟨chunks, rfl, by rwa [List.append_nil]⟩
  · rintro ⟨chunks, rfl, searched⟩
    exact ⟨h₂, chunks, [], (List.append_nil h₂).symm, searched, Attempt.returns_pure.2 ⟨rfl, rfl⟩⟩

end Parts
end Retrieval

namespace Reasoning

open Retrieval

variable {s : ReasoningSettings} {p : Prompt} {h : History Call.interface}

theorem answers_before {h' : History Call.interface} {x : Exchange Call.interface}
    {a b : ModelAnswer} (one : answers (h ++ x :: h') = [b]) (hx : answer? x = some a) :
    answers h = [] := by
  have delivered : answers (x :: h') = a :: answers h' := List.filterMap_cons_some hx
  rw [answers_append, delivered] at one
  have length := congrArg List.length one
  rw [List.length_append, List.length_cons, List.length_singleton] at length
  exact List.length_eq_zero_iff.1 (by omega)

theorem asked_of_consult {a : ModelAnswer} (hr : Returns (consult s p).run h (.ok a)) :
    ∃ limit, ⟨.completion p.messages ⟨s.temperature, s.maxTokens⟩ limit, .ok a⟩ ∈ h := by
  rcases returns_policyOf_bind hr with ⟨-, he⟩ | ⟨policy, -, hr⟩
  · cases he
  obtain ⟨h₁, y, h₂, rfl, hy, ht⟩ := returns_bind.1 hr
  cases y with
  | error e =>
    obtain ⟨h₃, u, h₄, rfl, -, hd⟩ := returns_bind.1 ht
    cases (returns_done.1 hd).2
  | ok b =>
    obtain ⟨h₃, u, h₄, rfl, -, hd⟩ := returns_bind.1 ht
    cases (returns_done.1 hd).2
    obtain ⟨before, final, rfl, last⟩ := RetryRule.ends_of_run hy
    obtain rfl := returns_perform.1 last
    exact ⟨policy.timeoutMs, by simp⟩

theorem stage_of_consult {f : Failure} {stage : AiStage}
    (hr : Returns (consult s p).run h (.error f)) (hf : f.stage? = some stage) :
    stage = .model ∧ (Called .model h ↔ Admitted s.model) := by
  rcases returns_policyOf_bind hr with ⟨-, he⟩ | ⟨policy, hp, hr⟩
  · cases he
    exact absurd hf stage_of_noPolicy
  obtain ⟨h₁, y, h₂, rfl, hy, ht⟩ := returns_bind.1 hr
  cases y with
  | ok a =>
    obtain ⟨h₃, u, h₄, rfl, -, hd⟩ := returns_bind.1 ht
    cases (returns_done.1 hd).2
  | error e =>
    obtain ⟨h₃, u, h₄, rfl, hc, hd⟩ := returns_bind.1 ht
    obtain rfl := returns_perform.1 hc
    obtain ⟨rfl, he⟩ := returns_done.1 hd
    cases he
    have own := Failure.stage?_ofActivity (RetryRule.hasText_of_run hy) .model activity
    have called : Called .model h₁ ↔ Admitted (some policy) := by
      refine called_of_remote (fun limit h y hy => ?_) hy
      obtain rfl := returns_perform.1 hy
      exact ⟨_, List.mem_singleton_self _, rfl⟩
    refine ⟨Option.some.inj (hf.symm.trans own), ?_⟩
    rw [hp, ← called]
    refine called_append.trans (or_iff_left ?_)
    simp [Called, Call.stage?]

variable {retrieval : RetrievalSettings} {i : AssessmentInput}

/-- The histories of reasoning up to the answer: the query cannot be written, or the embedding, the
search or the model fails, or each of them succeeds and the answer is read. -/
inductive Completing (retrieval : RetrievalSettings) (s : ReasoningSettings) (i : AssessmentInput) :
    History Call.interface → Except Failure Assessment → Prop where
  | unasked (undated : ¬i.facts.Dated) : Completing retrieval s i [] (.error .invalidTime)
  | unembedded {q : String} {h : History Call.interface} {e : Failure}
      (failed : Returns (embed retrieval q).run h (.error e)) :
      Completing retrieval s i h (.error e)
  | unsearched {q : String} {v : List Number} {h₁ h₂ : History Call.interface} {e : Failure}
      (embedded : Returns (embed retrieval q).run h₁ (.ok v))
      (failed : Returns (search retrieval v ⟨some i.visaCode, i.jurisdiction⟩ retrieval.topK
        retrieval.minSimilarity).run h₂ (.error e)) :
      Completing retrieval s i (h₁ ++ h₂) (.error e)
  | unanswered {q : String} {v : List Number} {chunks : List Chunk} {p : Prompt}
      {h₁ h₂ h₃ : History Call.interface} {e : Failure}
      (embedded : Returns (embed retrieval q).run h₁ (.ok v))
      (searched : Returns (search retrieval v ⟨some i.visaCode, i.jurisdiction⟩ retrieval.topK
        retrieval.minSimilarity).run h₂ (.ok chunks))
      (failed : Returns (consult s p).run h₃ (.error e)) :
      Completing retrieval s i (h₁ ++ h₂ ++ h₃) (.error e)
  | completed {q : String} {v : List Number} {chunks : List Chunk} {p : Prompt} {a : ModelAnswer}
      {h₁ h₂ h₃ : History Call.interface}
      (embedded : Returns (embed retrieval q).run h₁ (.ok v))
      (searched : Returns (search retrieval v ⟨some i.visaCode, i.jurisdiction⟩ retrieval.topK
        retrieval.minSimilarity).run h₂ (.ok chunks))
      (prompted : Prompt.ofCase chunks i.rule.findings i.facts i.visaCode = .ok p)
      (answered : Returns (consult s p).run h₃ (.ok a)) :
      Completing retrieval s i (h₁ ++ h₂ ++ h₃)
        (.ok (ofAnswer s.noContextConfidenceCap chunks p a))

theorem Completing.of_returns {x : Except Failure Assessment}
    (hr : Returns (complete retrieval s i).run h x) : Completing retrieval s i h x := by
  unfold complete at hr
  by_cases dated : i.facts.Dated
  case neg =>
    rw [retrieve, query_of_not_dated dated] at hr
    obtain ⟨rfl, rfl⟩ := returns_done.1 hr
    exact .unasked dated
  obtain ⟨q, hq⟩ := query_of_dated dated (some i.visaCode)
  rcases Attempt.returns_bind.1 hr with ⟨e, rfl, hc⟩ | ⟨h', context, h₃, rfl, hc, ht⟩
  · rcases (returns_retrieve hq).1 hc with ⟨e, he, failed⟩ | ⟨h₁, v, h₂, rfl, embedded, ht⟩
    · cases he
      exact .unembedded failed
    rcases ht with ⟨e, he, failed⟩ | ⟨chunks, he, -⟩
    · cases he
      exact .unsearched embedded failed
    · cases he
  rcases (returns_retrieve hq).1 hc with ⟨e, he, -⟩ | ⟨h₁, v, h₂, rfl, embedded, hs⟩
  · cases he
  rcases hs with ⟨e, he, -⟩ | ⟨chunks, he, searched⟩
  · cases he
  cases he
  obtain ⟨p, prompted⟩ := Prompt.ofCase_of_dated dated chunks i.rule.findings i.visaCode
  dsimp only at ht
  rw [prompted, ok_bind] at ht
  rcases Attempt.returns_bind.1 ht with ⟨e, rfl, failed⟩ | ⟨h₄, a, h₅, rfl, answered, hd⟩
  · exact .unanswered embedded searched failed
  · obtain ⟨rfl, rfl⟩ := Attempt.returns_pure.1 hd
    rw [List.append_nil]
    exact .completed embedded searched prompted answered

variable {c : Assessment}

/-- An assessment of the answer over a history: the prompt shows the ranked chunks of the one search
that found some, and the model was given that prompt. -/
structure Prompted (retrieval : RetrievalSettings) (s : ReasoningSettings) (i : AssessmentInput)
    (h : History Call.interface) (c : Assessment) : Prop where
  answered : answers h = [c.answer]
  asked : ∃ limit, ⟨.completion c.prompt.messages ⟨s.temperature, s.maxTokens⟩ limit,
    .ok c.answer⟩ ∈ h
  searched : ∃ vector limit found, ⟨.search vector ⟨some i.visaCode, i.jurisdiction⟩ retrieval.topK
    retrieval.minSimilarity limit, .ok found⟩ ∈ h ∧ findings h = [found] ∧
      c.chunks = Chunk.rank found retrieval.topK retrieval.minSimilarity
  prompted : Prompt.ofCase c.chunks i.rule.findings i.facts i.visaCode = .ok c.prompt
  read : c = ofAnswer s.noContextConfidenceCap c.chunks c.prompt c.answer

theorem Prompted.mono {h' : History Call.interface} (hp : Prompted retrieval s i h c)
    (hh : ∀ x ∈ h, x ∈ h') (same : answers h' = answers h) (same' : findings h' = findings h) :
    Prompted retrieval s i h' c := by
  obtain ⟨limit, asked⟩ := hp.asked
  obtain ⟨vector, limit', found, search, finding, ranked⟩ := hp.searched
  exact ⟨same.trans hp.answered, ⟨limit, hh _ asked⟩,
    ⟨vector, limit', found, hh _ search, same'.trans finding, ranked⟩, hp.prompted, hp.read⟩

theorem Completing.prompted (hc : Completing retrieval s i h (.ok c)) :
    Prompted retrieval s i h c := by
  cases hc with
  | @completed q v chunks p a h₁ h₂ h₃ embedded searched prompted answered =>
    obtain ⟨unanswered, unfound⟩ := answers_of_embed embedded
    obtain ⟨limit, found, search, finding, ranked⟩ := found_of_search searched
    obtain ⟨given, last⟩ := answers_of_consult answered
    obtain ⟨limit', asked⟩ := asked_of_consult answered
    refine ⟨?_, ⟨limit', ?_⟩, ⟨v, limit, found, ?_, ?_, ranked⟩, prompted, rfl⟩
    · rw [answers_append, answers_append, unanswered, (answers_of_ranked searched).1, given]
      rfl
    · simp [asked, ofAnswer]
    · simp [search]
    · rw [findings_append, findings_append, unfound, finding, last]
      rfl

end Reasoning
end VisaEligibility
