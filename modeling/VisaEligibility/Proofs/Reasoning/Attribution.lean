import VisaEligibility.Proofs.Bench.Services
import VisaEligibility.Proofs.Reasoning.Stages
/-!
A verdict that is unavailable names the stage that failed: the stages before it have succeeded and
none after it is reached. One that is completed keeps the first answer delivered in time. Either way
one outcome is counted.
-/
set_option autoImplicit false

namespace VisaEligibility

open Program

namespace Counters

theorem value_add (c d : Counter) (counts : List (Counter × Nat)) :
    value ⟨add c counts⟩ d = value ⟨counts⟩ d + if c = d then 1 else 0 := by
  induction counts with
  | nil => by_cases same : c = d <;> simp [add, value, same]
  | cons e es ih =>
    unfold value at ih ⊢
    by_cases counted : e.1 = c
    · subst counted
      by_cases same : e.1 = d <;> simp [add, same]
    · rw [add, if_neg counted]
      by_cases same : e.1 = d
      · have other : c ≠ d := fun hc => counted (same.trans hc.symm)
        simp [same, other]
      · simpa [same] using ih

theorem value_foldl_count (counted : List Counter) (cs : Counters) (d : Counter) :
    (counted.foldl count cs).value d = cs.value d + counted.count d := by
  induction counted generalizing cs with
  | nil => rfl
  | cons c counted ih =>
    rw [List.foldl_cons, ih, List.count_cons]
    have one : (cs.count c).value d = cs.value d + if c = d then 1 else 0 := value_add c d cs.counts
    rw [one, Nat.add_assoc]
    congr 1
    simp [Nat.add_comm]

end Counters

def counted? : Exchange Call.interface → Option Counter
  | ⟨.count c, _⟩ => some c
  | _ => none

def counted (h : History Call.interface) : List Counter := h.filterMap counted?

theorem count_reasoningCounts {d : Counter} (hd : d.name = Counter.reasoningName)
    (h : History Call.interface) : (counted h).count d = (reasoningCounts h).count d := by
  induction h with
  | nil => rfl
  | cons x h ih =>
    obtain ⟨c, reply⟩ := x
    unfold counted reasoningCounts at ih ⊢
    cases c with
    | count c =>
      by_cases named : c.name = Counter.reasoningName
      · simp [counted?, reasoningCount?, named, List.count_cons, ih]
      · have other : c ≠ d := fun hc => named (hc ▸ hd)
        simp [counted?, reasoningCount?, named, other, ih]
    | _ => exact ih

namespace Reasoning

open Retrieval

variable {retrieval : RetrievalSettings} {s : ReasoningSettings} {i : AssessmentInput}
  {h : History Call.interface}

def Attributed (retrieval : RetrievalSettings) (s : ReasoningSettings)
    (h : History Call.interface) : Reasoning → Prop
  | .unavailable .embedding _ => ¬Called .retrieval h ∧ ¬Called .model h
  | .unavailable .retrieval _ =>
    (∃ v, Embedded retrieval h v) ∧ (Called .retrieval h ↔ Admitted retrieval.search) ∧
      ¬Called .model h
  | .unavailable .model _ =>
    (∃ v, Embedded retrieval h v) ∧ (∃ found, findings h = [found]) ∧
      (Called .model h ↔ Admitted s.model) ∧ answers h = []
  | .completed c =>
    (∃ v, Embedded retrieval h v) ∧ (∃ found, findings h = [found]) ∧
      ∃ before limit after, h = before ++ ⟨.completion c.prompt.messages
        ⟨s.temperature, s.maxTokens⟩ limit, .ok c.answer⟩ :: after ∧ answers before = []

def counter : Reasoning → Counter
  | .completed _ => .reasoning "completed" "none"
  | .unavailable stage _ => .reasoning "unavailable" stage.name

section Stages

variable {q : String} {v : List Number} {filters : ChunkFilters} {topK minSimilarity : Number}
  {p : Prompt}

theorem isOf_embed {x : Except Failure (List Number)} (hr : Returns (embed retrieval q).run h x) :
    ∀ x ∈ h, x.call.isOf .embedding = true :=
  (only_embed retrieval q (fun _ => rfl) fun _ => rfl).of_reaches hr

theorem isOf_search {x : Except Failure (List Chunk)}
    (hr : Returns (search retrieval v filters topK minSimilarity).run h x) :
    ∀ x ∈ h, x.call.isOf .retrieval = true :=
  (only_search retrieval v filters topK minSimilarity (fun _ => rfl) fun _ => rfl).of_reaches hr

theorem isOf_consult {x : Except Failure ModelAnswer} (hr : Returns (consult s p).run h x) :
    ∀ x ∈ h, x.call.isOf .model = true :=
  (only_consult s p (fun _ => rfl) (fun _ _ => rfl) fun _ _ _ => rfl).of_reaches hr

end Stages

theorem Completing.isOf {x : Except Failure Assessment} (hc : Completing retrieval s i h x) :
    ∀ x ∈ h, ∃ stage, x.call.isOf stage = true := by
  have own {stage : AiStage} {h : History Call.interface}
      (hh : ∀ x ∈ h, x.call.isOf stage = true) : ∀ x ∈ h, ∃ stage, x.call.isOf stage = true :=
    fun x hx => ⟨stage, hh x hx⟩
  cases hc with
  | unasked undated => exact fun x hx => nomatch hx
  | unembedded failed => exact own (isOf_embed failed)
  | unsearched embedded failed =>
    exact List.forall_mem_append.2 ⟨own (isOf_embed embedded), own (isOf_search failed)⟩
  | unanswered embedded searched failed =>
    exact List.forall_mem_append.2 ⟨List.forall_mem_append.2
      ⟨own (isOf_embed embedded), own (isOf_search searched)⟩, own (isOf_consult failed)⟩
  | completed embedded searched prompted answered =>
    exact List.forall_mem_append.2 ⟨List.forall_mem_append.2
      ⟨own (isOf_embed embedded), own (isOf_search searched)⟩, own (isOf_consult answered)⟩

theorem Completing.attributed_error {f : Failure} {stage : AiStage}
    (hc : Completing retrieval s i h (.error f)) (hf : f.stage? = some stage) (message : String) :
    Attributed retrieval s h (.unavailable stage message) := by
  cases hc with
  | unasked undated => cases stage <;> cases hf
  | unembedded failed =>
    obtain rfl := stage_of_embed failed hf
    exact ⟨not_called_of_isOf (isOf_embed failed) nofun,
      not_called_of_isOf (isOf_embed failed) nofun⟩
  | @unsearched q v h₁ h₂ _ embedded failed =>
    obtain ⟨rfl, called⟩ := stage_of_search failed hf
    have unsearched : ¬Called .retrieval h₁ := not_called_of_isOf (isOf_embed embedded) nofun
    refine ⟨⟨v, (embedded_of_embed embedded).mono fun _ => List.mem_append_left _⟩, ?_, ?_⟩
    · rw [called_append, ← called, or_iff_right unsearched]
    · rw [called_append, not_or]
      exact ⟨not_called_of_isOf (isOf_embed embedded) nofun,
        not_called_of_isOf (isOf_search failed) nofun⟩
  | @unanswered q v chunks p h₁ h₂ h₃ _ embedded searched failed =>
    obtain ⟨rfl, called⟩ := stage_of_consult failed hf
    obtain ⟨limit, found, -, finding, -⟩ := found_of_search searched
    obtain ⟨unanswered, unfound⟩ := answers_of_embed embedded
    obtain ⟨failing, last⟩ := answers_of_consult failed
    have unasked : ¬Called .model (h₁ ++ h₂) := by
      rw [called_append, not_or]
      exact ⟨not_called_of_isOf (isOf_embed embedded) nofun,
        not_called_of_isOf (isOf_search searched) nofun⟩
    refine ⟨⟨v, (embedded_of_embed embedded).mono fun _ hx => by simp [hx]⟩, ⟨found, ?_⟩, ?_, ?_⟩
    · rw [findings_append, findings_append, unfound, finding, last]
      rfl
    · rw [called_append, ← called, or_iff_right unasked]
    · rw [answers_append, answers_append, unanswered, (answers_of_ranked searched).1, failing]
      rfl

theorem Completing.attributed_ok {c : Assessment} (hc : Completing retrieval s i h (.ok c)) :
    Attributed retrieval s h (.completed c) := by
  have prompted := hc.prompted
  obtain ⟨-, -, found, -, finding, -⟩ := prompted.searched
  obtain ⟨limit, asked⟩ := prompted.asked
  obtain ⟨before, after, split⟩ := List.append_of_mem asked
  refine ⟨?_, ⟨found, finding⟩, before, limit, after, split, ?_⟩
  · cases hc with
    | @completed q v chunks p a h₁ h₂ h₃ embedded searched prompted answered =>
      exact ⟨v, (embedded_of_embed embedded).mono fun _ hx => by simp [hx]⟩
  · exact answers_before (split ▸ prompted.answered) rfl

theorem Attributed.counted {x : Reasoning} (ha : Attributed retrieval s h x) (c : Counter) :
    Attributed retrieval s (h ++ [⟨.count c, ()⟩]) x := by
  have called (stage : AiStage) : Called stage (h ++ [⟨.count c, ()⟩]) ↔ Called stage h := by
    refine called_append.trans (or_iff_left ?_)
    simp [Called, Call.stage?]
  have embedded (hv : ∃ v, Embedded retrieval h v) :
      ∃ v, Embedded retrieval (h ++ [⟨.count c, ()⟩]) v := by
    obtain ⟨v, hv⟩ := hv
    exact ⟨v, hv.mono fun _ => List.mem_append_left _⟩
  have found : findings (h ++ [⟨.count c, ()⟩]) = findings h :=
    (findings_append ..).trans (List.append_nil _)
  have given : answers (h ++ [⟨.count c, ()⟩]) = answers h :=
    (answers_append ..).trans (List.append_nil _)
  cases x with
  | completed a =>
    obtain ⟨hv, hf, before, limit, after, split, first⟩ := ha
    refine ⟨embedded hv, found.symm ▸ hf, before, limit, after ++ [⟨.count c, ()⟩], ?_, first⟩
    rw [split]
    simp
  | unavailable stage error =>
    cases stage with
    | embedding => simpa only [Attributed, called] using ha
    | retrieval =>
      obtain ⟨hv, admitted, unasked⟩ := ha
      exact ⟨embedded hv, (called _).trans admitted, mt (called _).1 unasked⟩
    | model =>
      obtain ⟨hv, hf, admitted, unanswered⟩ := ha
      exact ⟨embedded hv, found.symm ▸ hf, (called _).trans admitted, given.trans unanswered⟩

theorem completing_of_run {x : Reasoning} (hr : Returns (run retrieval s i).run h (.ok x)) :
    ∃ h' y, h = h' ++ [⟨.count x.counter, ()⟩] ∧ Completing retrieval s i h' y ∧
      ((∃ c, y = .ok c ∧ x = .completed c) ∨
        ∃ f stage, y = .error f ∧ f.stage? = some stage ∧ x = .unavailable stage f.message) := by
  obtain ⟨h₁, y, h₂, rfl, hy, ht⟩ := returns_bind.1 hr
  have completing := Completing.of_returns hy
  cases y with
  | ok c =>
    obtain ⟨h₃, u, h₄, rfl, hc, hd⟩ := returns_bind.1 ht
    obtain rfl := returns_perform.1 hc
    obtain ⟨rfl, he⟩ := returns_done.1 hd
    cases he
    exact ⟨h₁, _, rfl, completing, .inl ⟨c, rfl, rfl⟩⟩
  | error f =>
    dsimp only at ht
    split at ht
    · rename_i stage hf
      obtain ⟨h₃, u, h₄, rfl, hc, hd⟩ := returns_bind.1 ht
      obtain rfl := returns_perform.1 hc
      obtain ⟨rfl, he⟩ := returns_done.1 hd
      cases he
      exact ⟨h₁, _, rfl, completing, .inr ⟨f, stage, rfl, hf, rfl⟩⟩
    · cases (returns_done.1 ht).2

/-- Reasoning that resolves is attributed to the stage that ended it and counted once, under what it
came to; with policies for its calls and facts that have a text it resolves. An answer that it
keeps was delivered within the limit of its call. -/
theorem failures_attributed (retrieval : RetrievalSettings) (s : ReasoningSettings)
    (i : AssessmentInput) :
    (∀ h x, Returns (run retrieval s i).run h (.ok x) →
      Attributed retrieval s h x ∧ reasoningCounts h = [x.counter] ∧
      ∀ (cs : Counters) d, d.name = Counter.reasoningName →
        ((counted h).foldl Counters.count cs).value d =
          cs.value d + if d = x.counter then 1 else 0) ∧
    (Configured retrieval s → i.facts.Dated →
      ∀ h x, Returns (run retrieval s i).run h x → ∃ y, x = .ok y) ∧
    ∀ (w : BenchWorld) messages options limit a,
      (Clock.World.answer Bench.environment (.completion messages options limit) w).1 = .ok a →
        (Bench.wait (.completion messages options limit) w.state).1.InTime w.time := by
  refine ⟨fun h x hr => ?_, fun configured dated h x hr => resolves_of_dated configured dated hr,
    fun w _ _ _ _ answered => Bench.inTime_of_answered answered⟩
  obtain ⟨h', y, rfl, completing, ended⟩ := completing_of_run hr
  have named : x.counter.name = Counter.reasoningName := by cases x <;> rfl
  have counts : reasoningCounts (h' ++ [⟨.count x.counter, ()⟩]) = [x.counter] := by
    rw [reasoningCounts_append, reasoningCounts_of_isOf completing.isOf]
    exact congrArg Option.toList (if_pos named)
  refine ⟨?_, counts, fun cs d hd => ?_⟩
  · rcases ended with ⟨c, rfl, rfl⟩ | ⟨f, stage, rfl, hf, rfl⟩
    · exact completing.attributed_ok.counted _
    · exact (completing.attributed_error hf _).counted _
  · rw [Counters.value_foldl_count, count_reasoningCounts hd, counts, List.count_singleton]
    by_cases same : d = x.counter
    · rw [same, if_pos rfl, if_pos (beq_self_eq_true _)]
    · rw [if_neg same, if_neg fun hc => same (eq_of_beq hc).symm]

def emptyInput : AssessmentInput := ⟨.empty, default, "SKW", none⟩

def lateBench : BenchWorld :=
  { state := { Bench.start (.ofMillis 0) with
      model := ⟨{ answers := [some (.ok "OUTCOME: eligible")], fallback := .error Bench.noAnswer,
                  delays := [some 70000, some 5] }, []⟩ } }

def fourDimensions : RetrievalSettings := { embeddingDimensions := some 4 }

def lateHistory : History Call.interface :=
  record (Clock.World.answer Bench.environment) (run fourDimensions {} emptyInput).run lateBench

def text? : Except Failure Reasoning → Option String
  | .ok (.completed c) => some c.answer.text
  | _ => none

theorem completed_of_text? {x : Except Failure Reasoning} {text : String}
    (hx : text? x = some text) : ∃ c, x = .ok (.completed c) ∧ c.answer.text = text := by
  unfold text? at hx
  split at hx
  · exact ⟨_, rfl, Option.some.inj hx⟩
  · cases hx

/-- The call that is answered in time decides, and it is counted as completed. -/
theorem failures_attributed_late : ∃ c, Attributed fourDimensions {} lateHistory (.completed c) ∧
    c.answer.text = "OUTCOME: eligible" ∧
    reasoningCounts lateHistory = [.reasoning "completed" "none"] ∧
    (lateHistory.filter fun x => x.call.stage? = some .model).length = 2 := by
  have hr := returns_record (Clock.World.answer Bench.environment)
    (run fourDimensions {} emptyInput).run lateBench
  have kept : text? ((run fourDimensions {} emptyInput).run.eval
      (Clock.World.answer Bench.environment) lateBench).1 = some "OUTCOME: eligible" := by
    decide +kernel
  obtain ⟨c, ended, text⟩ := completed_of_text? kept
  rw [ended] at hr
  obtain ⟨attributed, counts, -⟩ := (failures_attributed _ _ _).1 _ _ hr
  exact ⟨c, attributed, text, counts, by decide +kernel⟩

def unsearching : RetrievalSettings :=
  { fourDimensions with
    search := some
      { timeoutMs := some 1000, retry := { RetryPolicy.remote with maxAttempts := .finite (-1) } } }

def failingBench : BenchWorld :=
  { state := { Bench.start (.ofMillis 0) with
      search := { fallback := .ok (), fault := some (.failure (.general "boom")) } } }

def loss? : Except Failure Reasoning → Option (AiStage × String)
  | .ok (.unavailable stage e) => some (stage, e)
  | _ => none

theorem unavailable_of_loss? {x : Except Failure Reasoning} {stage : AiStage} {e : String}
    (hx : loss? x = some (stage, e)) : x = .ok (.unavailable stage e) := by
  unfold loss? at hx
  split at hx
  · cases hx
    rfl
  · cases hx

/-- The failure of a retrieval whose policy admits no attempt is not one of the search provider: it
was never called. -/
theorem retrieval_fails_uncalled : ∃ h e, emptyInput.facts.Dated ∧ Configured unsearching {} ∧
    h = record (Clock.World.answer Bench.environment) (run unsearching {} emptyInput).run
      failingBench ∧
    Returns (run unsearching {} emptyInput).run h (.ok (.unavailable .retrieval e)) ∧
    ¬Called .retrieval h := by
  have hr := returns_record (Clock.World.answer Bench.environment)
    (run unsearching {} emptyInput).run failingBench
  have failed : loss? ((run unsearching {} emptyInput).run.eval
      (Clock.World.answer Bench.environment) failingBench).1 =
        some (.retrieval, "Vector search failed: Operation failed after retries") := by
    decide +kernel
  have uncalled : ∀ x ∈ record (Clock.World.answer Bench.environment)
      (run unsearching {} emptyInput).run failingBench, x.call.stage? ≠ some .retrieval := by
    decide +kernel
  rw [unavailable_of_loss? failed] at hr
  refine ⟨_, _, ?_, ⟨⟨_, rfl⟩, ⟨_, rfl⟩, ⟨_, rfl⟩⟩, rfl, hr, ?_⟩
  · intro name
    simp [emptyInput, Facts.get?, Facts.empty, Entries.get?]
  · rintro ⟨x, hx, called⟩
    exact uncalled x hx called

end Reasoning
end VisaEligibility
