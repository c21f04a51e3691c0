import VisaEligibility.Proofs.Reasoning.Calls
import VisaEligibility.Clock.World
/-!
When reasoning resolves. Every failure of a remote call belongs to a stage and makes the verdict
unavailable; a fact that is an invalid instant has no text, and that failure belongs to no stage.
-/
set_option autoImplicit false

namespace VisaEligibility

open Program

theorem Scalar.factText_of_ne {v : Scalar} (hv : v ≠ .date .invalid) :
    ∃ text, v.factText = .ok text := by
  cases v with
  | date d =>
    cases d with
    | invalid => exact absurd rfl hv
    | ofMillis ms => exact ⟨_, rfl⟩
  | number x => exact ⟨_, rfl⟩
  | text s => exact ⟨_, rfl⟩
  | bool b => exact ⟨_, rfl⟩

theorem Facts.mem_sortedNames {facts : Facts} {name : String} {v : Scalar}
    (hv : facts.get? name = some v) : name ∈ facts.sortedNames := by
  unfold Facts.get? Entries.get? at hv
  cases he : facts.entries.find? fun e => e.1 == name with
  | none => simp [he] at hv
  | some e =>
    have hn : e.1 = name := by simpa using List.find?_some he
    have hm : name ∈ Entries.keys facts.entries := by
      rw [← hn]
      exact List.mem_map.2 ⟨e, List.mem_of_find?_eq_some he, rfl⟩
    exact (List.mergeSort_perm _ _).mem_iff.2 hm

def Facts.text (facts : Facts) (name : String) : String :=
  match facts.get? name with
  | some v => v.factText.toOption.getD ""
  | none => ""

theorem Facts.factText_of_dated {facts : Facts} (hf : facts.Dated) {name : String} {v : Scalar}
    (hv : facts.get? name = some v) : v.factText = .ok (facts.text name) := by
  have valid : v ≠ .date .invalid := by
    intro invalid
    exact hf name (invalid ▸ hv)
  obtain ⟨text, ht⟩ := Scalar.factText_of_ne valid
  simp [Facts.text, hv, ht, Except.toOption]

namespace Retrieval

variable {facts : Facts}

def factPart (facts : Facts) (name : String) : String := spaced name ++ ": " ++ facts.text name

theorem factParts_of_dated (hf : facts.Dated) (names : List String) :
    factParts facts names =
      .ok ((names.filter fun name => (facts.get? name).isSome).map (factPart facts)) := by
  induction names with
  | nil => rfl
  | cons name names ih =>
    cases hv : facts.get? name with
    | none => simp [factParts, hv, ih]
    | some v =>
      have listed : (facts.get? name).isSome = true := by simp [hv]
      rw [List.filter_cons_of_pos (by exact listed), List.map_cons]
      simp only [factParts, hv, Facts.factText_of_dated hf hv, ih]
      rfl

theorem factParts_of_invalid {names : List String} {name : String} (hn : name ∈ names)
    (hv : facts.get? name = some (.date .invalid)) :
    factParts facts names = .error .invalidTime := by
  induction names with
  | nil => cases hn
  | cons first names ih =>
    by_cases hd : facts.get? first = some (.date .invalid)
    · simp only [factParts, hd]
      rfl
    · have hr : name ∈ names := by
        rcases List.mem_cons.1 hn with rfl | hr
        · exact absurd hv hd
        · exact hr
      cases hf : facts.get? first with
      | none =>
        simp only [factParts, hf]
        exact ih hr
      | some v =>
        have hne : v ≠ .date .invalid := by
          rintro rfl
          exact hd hf
        obtain ⟨text, ht⟩ := Scalar.factText_of_ne hne
        simp only [factParts, hf, ht, ih hr]
        rfl

theorem query_of_dated (hf : facts.Dated) (visaCode : Option String) :
    ∃ q, query facts visaCode = .ok q := by
  unfold query
  rw [factParts_of_dated hf]
  exact ⟨_, rfl⟩

theorem query_of_not_dated (hf : ¬facts.Dated) (visaCode : Option String) :
    query facts visaCode = .error .invalidTime := by
  obtain ⟨name, hn⟩ := Classical.not_forall.1 hf
  have hv := Classical.not_not.1 hn
  unfold query
  rw [factParts_of_invalid (Facts.mem_sortedNames hv) hv]
  rfl

end Retrieval

namespace Prompt

variable {facts : Facts}

theorem factLine_of_dated (hf : facts.Dated) (name : String) :
    factLine facts name = .ok ("- " ++ name ++ ": " ++ facts.text name) := by
  unfold factLine
  cases hv : facts.get? name with
  | none =>
    have none : facts.text name = "" := by simp [Facts.text, hv]
    rw [none]
    rfl
  | some v =>
    simp only [Facts.factText_of_dated hf hv]
    rfl

theorem mapM_factLine_of_dated (hf : facts.Dated) (names : List String) :
    names.mapM (factLine facts) =
      .ok (names.map fun name => "- " ++ name ++ ": " ++ facts.text name) := by
  induction names with
  | nil => rfl
  | cons name names ih =>
    rw [List.mapM_cons, factLine_of_dated hf, ih]
    rfl

theorem ofCase_of_dated (hf : facts.Dated) (chunks : List Chunk) (rule : RuleFindings)
    (visaCode : String) : ∃ p, ofCase chunks rule facts visaCode = .ok p := by
  have lines : ∃ ls, factLines facts = .ok ls := by
    unfold factLines
    split
    · exact ⟨_, rfl⟩
    · exact ⟨_, mapM_factLine_of_dated hf _⟩
  obtain ⟨ls, hl⟩ := lines
  unfold ofCase
  rw [hl]
  exact ⟨_, rfl⟩

end Prompt

/-- Every remote call of the reasoning path has a policy to be made under. -/
structure Configured (retrieval : RetrievalSettings) (s : ReasoningSettings) : Prop where
  embedding : ∃ policy, retrieval.embedding = some policy
  search : ∃ policy, retrieval.search = some policy
  model : ∃ policy, s.model = some policy

@[simp] theorem Failure.stage?_ofStage (stage : AiStage) (message : String)
    (cause : Option String) : (Failure.ofStage stage message cause).stage? = some stage := by
  cases stage <;> rfl

theorem Failure.stage?_ofActivity {e : Raised} (he : e.hasText = true) (stage : AiStage)
    (activity : String) : (Failure.ofActivity stage activity e).stage? = some stage := by
  simp [Failure.ofActivity, Failure.causedBy, Raised.text, he]

namespace Retrieval

variable {α β : Type}

/-- Whatever a program is replied, its failures belong to stages of the reasoning path. -/
def Staged (p : Attempted α) : Prop :=
  ∀ h f, Returns p.run h (.error f) → f.stage? ≠ none

theorem staged_ok {x : Except Failure α} (hx : ∀ f, x = .error f → f.stage? ≠ none) :
    Staged (ExceptT.mk (return x)) := by
  intro h f hr
  exact hx f (returns_done.1 hr).2.symm

theorem staged_pure (a : α) : Staged (pure a) := staged_ok nofun

theorem Staged.bind {p : Attempted α} {f : α → Attempted β} (hp : Staged p)
    (hf : ∀ a, Staged (f a)) : Staged (p >>= f) := by
  intro h e hr
  rcases Attempt.returns_bind.1 hr with ⟨e', he, hr⟩ | ⟨h₁, a, h₂, -, -, hr⟩
  · cases he
    exact hp h e hr
  · exact hf a h₂ e hr

theorem staged_policyOf {setting : String} {policy : Option CallPolicy}
    (hp : ∃ p, policy = some p) : Staged (policyOf setting policy) := by
  obtain ⟨p, rfl⟩ := hp
  exact staged_ok nofun

theorem staged_staged (stage : AiStage) (activity : String) (policy : CallPolicy)
    (call : Option Number → Engine (Except Raised α)) :
    Staged (staged stage activity (remote policy call)) := by
  intro h f hr
  obtain ⟨h₁, x, h₂, -, failed, hd⟩ := returns_bind.1 hr
  cases x with
  | ok a => cases (returns_done.1 hd).2
  | error e =>
    cases (returns_done.1 hd).2
    simp [Failure.stage?_ofActivity (RetryRule.hasText_of_run failed)]

theorem staged_checkVector (dimensions : Option Number) (v : List Number) :
    Staged (ExceptT.mk (return checkVector dimensions v)) := by
  refine staged_ok fun f hf => ?_
  unfold checkVector at hf
  split at hf
  · cases hf
    simp
  · split at hf
    · cases hf
      simp
    · split at hf
      · cases hf
        simp
      · cases hf

theorem staged_embed {s : RetrievalSettings} (hs : ∃ p, s.embedding = some p) (text : String) :
    Staged (embed s text) :=
  (staged_policyOf hs).bind fun _ => (staged_staged _ _ _ _).bind fun v => staged_checkVector _ v

theorem staged_search {s : RetrievalSettings} (hs : ∃ p, s.search = some p)
    (vector : List Number) (filters : ChunkFilters) (topK minSimilarity : Number) :
    Staged (search s vector filters topK minSimilarity) :=
  (staged_policyOf hs).bind fun _ => (staged_staged _ _ _ _).bind fun _ => staged_pure _

end Retrieval

namespace Reasoning

open Retrieval

variable {retrieval : RetrievalSettings} {s : ReasoningSettings} {i : AssessmentInput}

theorem staged_consult (hs : ∃ p, s.model = some p) (p : Prompt) : Staged (consult s p) := by
  refine (staged_policyOf hs).bind fun policy => ?_
  intro h f hr
  obtain ⟨h₁, x, h₂, -, failed, hd⟩ := returns_bind.1 hr
  cases x with
  | ok a =>
    obtain ⟨h₃, u, h₄, -, -, hd⟩ := returns_bind.1 hd
    cases (returns_done.1 hd).2
  | error e =>
    obtain ⟨h₃, u, h₄, -, -, hd⟩ := returns_bind.1 hd
    cases (returns_done.1 hd).2
    simp [Failure.stage?_ofActivity (RetryRule.hasText_of_run failed)]

theorem staged_complete (hc : Configured retrieval s) (hf : i.facts.Dated) :
    Staged (complete retrieval s i) := by
  obtain ⟨q, hq⟩ := query_of_dated hf (some i.visaCode)
  have retrieving : Staged (retrieve retrieval i.facts ⟨some i.visaCode, i.jurisdiction⟩) := by
    unfold retrieve
    rw [hq]
    refine (staged_pure q).bind fun q => (staged_embed hc.embedding q).bind fun v => ?_
    exact (staged_search hc.search v _ _ _).bind fun chunks => staged_pure _
  refine retrieving.bind fun context => ?_
  obtain ⟨p, hp⟩ := Prompt.ofCase_of_dated hf context.chunks i.rule.findings i.visaCode
  rw [hp]
  exact (staged_pure p).bind fun p => (staged_consult hc.model p).bind fun a => staged_pure _

theorem resolves_of_dated (hc : Configured retrieval s) (hf : i.facts.Dated)
    {h : History Call.interface} {x : Except Failure Reasoning}
    (hr : Returns (run retrieval s i).run h x) : ∃ y, x = .ok y := by
  obtain ⟨h₁, y, h₂, -, hy, hd⟩ := returns_bind.1 hr
  cases y with
  | ok c =>
    obtain ⟨h₃, u, h₄, -, -, hd⟩ := returns_bind.1 hd
    exact ⟨_, (returns_done.1 hd).2⟩
  | error f =>
    have stage := staged_complete hc hf h₁ f hy
    cases hs : f.stage? with
    | none => exact absurd hs stage
    | some stage =>
      simp only [hs] at hd
      obtain ⟨h₃, u, h₄, -, -, hd⟩ := returns_bind.1 hd
      exact ⟨_, (returns_done.1 hd).2⟩

theorem run_of_not_dated (hf : ¬i.facts.Dated) :
    (run retrieval s i).run = done (.error .invalidTime) := by
  unfold run complete retrieve
  rw [query_of_not_dated hf]
  rfl

end Reasoning
end VisaEligibility
