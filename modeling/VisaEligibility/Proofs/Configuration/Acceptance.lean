import VisaEligibility.Configuration.Basic
import VisaEligibility.Proofs.Number.Order
/-!
Which environments are accepted and what the engine can rely on then. The limits of remote calls and
the pauses between them are read as they are given: no check looks at them.
-/
set_option autoImplicit false

namespace VisaEligibility

namespace Variables

variable {vs : Variables} {name : String} {fallback : Number}

theorem orFallback_ne_nan {x : Number} (known : fallback ≠ .nan) :
    orFallback fallback x ≠ .nan := by
  cases x <;> simp [orFallback, Number.isNaN, known]

theorem wholeNumber_ne_nan (known : fallback ≠ .nan) : vs.wholeNumber name fallback ≠ .nan := by
  unfold wholeNumber
  split
  · exact orFallback_ne_nan known
  · exact known

theorem decimal_ne_nan (known : fallback ≠ .nan) : vs.decimal name fallback ≠ .nan := by
  unfold decimal
  split
  · exact orFallback_ne_nan known
  · exact known

end Variables

def ConfigurationFault.variable : ConfigurationFault → String
  | invalid name _ _ => name
  | reviewAboveEligible => "REVIEW_CONFIDENCE_THRESHOLD"

namespace ConfigurationFault

@[simp] theorem variable_invalid (name shown demand : String) :
    (invalid name shown demand).variable = name := rfl

@[simp] theorem variable_reviewAboveEligible :
    reviewAboveEligible.variable = "REVIEW_CONFIDENCE_THRESHOLD" := rfl

end ConfigurationFault

def EngineSettings.policies (s : EngineSettings) : List CallPolicy :=
  [s.retrieval.embedding, s.retrieval.search, s.reasoning.model].filterMap id

namespace Configuration

def Within (low high x : Number) : Prop := low.le x = true ∧ x.le high = true

/-- The variables that hold a share of one, with what they are if they give no number. -/
def shares : List (String × Number) :=
  [("RETRIEVAL_MIN_SIMILARITY", .nearest (7 / 10)),
    ("NO_CONTEXT_CONFIDENCE_CAP", .nearest (5 / 10)),
    ("ELIGIBLE_CONFIDENCE_THRESHOLD", .nearest (8 / 10)),
    ("REVIEW_CONFIDENCE_THRESHOLD", .nearest (5 / 10)),
    ("ESCALATION_CONFIDENCE_THRESHOLD", .nearest (6 / 10))]

/-- A variable whose value is refused. -/
inductive Refused (vs : Variables) : String → Prop where
  | mode (unknown : ∀ m : RunMode, m.name ≠ vs.text "NODE_ENV" "development") :
      Refused vs "NODE_ENV"
  | port (outside : ¬Within 1 65535 (vs.wholeNumber "PORT" 4000)) : Refused vs "PORT"
  | schemaName (illegal : ∃ c ∈ (vs.text "PGVECTOR_SCHEMA" "vector").toList,
      c.isAlphanum = false ∧ c ≠ '_') : Refused vs "PGVECTOR_SCHEMA"
  | dimensions (low : ¬Number.le 1 (vs.wholeNumber "EMBEDDING_DIMENSIONS" 1536) = true) :
      Refused vs "EMBEDDING_DIMENSIONS"
  | count (low : ¬Number.le 1 (vs.wholeNumber "RETRIEVAL_TOP_K" 5) = true) :
      Refused vs "RETRIEVAL_TOP_K"
  | attempts (outside : ¬Within 0 10 (vs.wholeNumber "AI_MAX_RETRIES" 2)) :
      Refused vs "AI_MAX_RETRIES"
  | share {v : String × Number} (listed : v ∈ shares) (outside : ¬Within 0 1 (vs.decimal v.1 v.2)) :
      Refused vs v.1
  | order (above : ¬(vs.decimal "REVIEW_CONFIDENCE_THRESHOLD" (.nearest (5 / 10))).le
      (vs.decimal "ELIGIBLE_CONFIDENCE_THRESHOLD" (.nearest (8 / 10))) = true) :
      Refused vs "REVIEW_CONFIDENCE_THRESHOLD"

/-- What an engine can rely on in its settings. -/
structure Checked (s : EngineSettings) : Prop where
  eligible : Within 0 1 s.thresholds.eligible
  review : Within 0 1 s.thresholds.review
  escalation : Within 0 1 s.thresholds.escalation
  ordered : s.thresholds.review.le s.thresholds.eligible = true
  minSimilarity : Within 0 1 s.retrieval.minSimilarity
  noContextConfidenceCap : Within 0 1 s.reasoning.noContextConfidenceCap
  count : Number.le 1 s.retrieval.topK = true
  dimensions : ∃ n, s.retrieval.embeddingDimensions = some n ∧ Number.le 1 n = true
  policies : s.policies.length = 3
  attempts : ∀ p ∈ s.policies, Within 0 10 p.retry.maxAttempts

/-- Every remote call has a positive limit, and no pause is negative. -/
structure Timed (s : EngineSettings) : Prop where
  limits : ∀ p ∈ s.policies, ∃ limit, p.timeoutMs = some limit ∧ Number.lt 0 limit = true
  initialDelays : ∀ p ∈ s.policies, Number.le 0 p.retry.initialDelay = true
  maxDelays : ∀ p ∈ s.policies, Number.le 0 p.retry.maxDelay = true

def limitVariables : List String :=
  ["EMBEDDING_TIMEOUT_MS", "VECTOR_SEARCH_TIMEOUT_MS", "MODEL_TIMEOUT_MS"]

def pauseVariables : List String := ["AI_RETRY_INITIAL_DELAY_MS", "AI_RETRY_MAX_DELAY_MS"]

def Gives (vs : Variables) (name : String) (x : Number) : Prop :=
  ∃ s, vs.filled? name = some s ∧ Number.wholeOfStart s = x ∧ x ≠ .nan

/-- No variable gives a limit that is not positive, or a negative pause. -/
structure GivesTimes (vs : Variables) : Prop where
  limits : ∀ name ∈ limitVariables, ∀ x, Gives vs name x → Number.lt 0 x = true
  pauses : ∀ name ∈ pauseVariables, ∀ x, Gives vs name x → Number.le 0 x = true

variable {vs : Variables} {c : Configuration} {fs : List ConfigurationFault}
  {f : ConfigurationFault} {name : String} {x low high fallback : Number}

theorem outside_eq_true (m n : Nat) (known : x ≠ .nan) :
    outside (OfNat.ofNat m) (OfNat.ofNat n) x = true ↔
      ¬Within (OfNat.ofNat m) (OfNat.ofNat n) x := by
  rw [Within, ← Number.not_lt_iff known (Number.ofNat_ne_nan m),
    ← Number.not_lt_iff (Number.ofNat_ne_nan n) known, outside]
  cases x.lt (OfNat.ofNat m) <;> cases Number.lt (OfNat.ofNat n) x <;> simp

theorem outside_wholeNumber (m n k : Nat) :
    outside (OfNat.ofNat m) (OfNat.ofNat n) (vs.wholeNumber name (OfNat.ofNat k)) = true ↔
      ¬Within (OfNat.ofNat m) (OfNat.ofNat n) (vs.wholeNumber name (OfNat.ofNat k)) :=
  outside_eq_true m n (Variables.wholeNumber_ne_nan (Number.ofNat_ne_nan k))

theorem wholeNumber_lt_one (k : Nat) :
    (vs.wholeNumber name (OfNat.ofNat k)).lt 1 = true ↔
      ¬Number.le 1 (vs.wholeNumber name (OfNat.ofNat k)) = true := by
  have known : vs.wholeNumber name (OfNat.ofNat k) ≠ .nan :=
    Variables.wholeNumber_ne_nan (Number.ofNat_ne_nan k)
  rw [← Number.not_lt_iff known (Number.ofNat_ne_nan 1), Bool.not_eq_false]

theorem exists_mem_append {l m : List ConfigurationFault} :
    (∃ f ∈ l ++ m, f.variable = name) ↔
      (∃ f ∈ l, f.variable = name) ∨ ∃ f ∈ m, f.variable = name := by
  simp only [List.mem_append, or_and_right, exists_or]

theorem exists_mem_faultIf {condition : Bool} :
    (∃ g ∈ faultIf condition f, g.variable = name) ↔ condition = true ∧ f.variable = name := by
  cases condition <;> simp [faultIf]

theorem exists_mem_unitFault {v : String} {q : Rat} :
    (∃ g ∈ unitFault v (vs.decimal v (.nearest q)), g.variable = name) ↔
      ¬Within 0 1 (vs.decimal v (.nearest q)) ∧ v = name := by
  have known : vs.decimal v (.nearest q) ≠ .nan :=
    Variables.decimal_ne_nan (Number.nearest_ne_nan q)
  rw [unitFault, exists_mem_faultIf, outside_eq_true 0 1 known]
  rfl

theorem refused_of_unitFault {v : String} {q : Rat} (listed : (v, .nearest q) ∈ shares)
    (h : ∃ g ∈ unitFault v (vs.decimal v (.nearest q)), g.variable = name) : Refused vs name := by
  obtain ⟨fault, rfl⟩ := exists_mem_unitFault.1 h
  exact .share listed fault

theorem mode?_eq_none : (mode? vs).isNone = true ↔
    ∀ m : RunMode, m.name ≠ vs.text "NODE_ENV" "development" := by
  have listed (m : RunMode) : m ∈ RunMode.all := by cases m <;> simp [RunMode.all]
  simp [mode?, RunMode.ofName?, modeName, listed]

theorem illegal_iff {s : String} :
    (!s.toList.all isSchemaChar) = true ↔ ∃ c ∈ s.toList, c.isAlphanum = false ∧ c ≠ '_' := by
  simp [isSchemaChar]

theorem review_above_iff :
    (read vs).thresholds.eligible.lt (read vs).thresholds.review = true ↔
      ¬(read vs).thresholds.review.le (read vs).thresholds.eligible = true := by
  have known (v : String) (q : Rat) : vs.decimal v (.nearest q) ≠ .nan :=
    Variables.decimal_ne_nan (Number.nearest_ne_nan q)
  have eligible : (read vs).thresholds.eligible ≠ .nan := known _ _
  have review : (read vs).thresholds.review ≠ .nan := known _ _
  rw [← Number.not_lt_iff eligible review, Bool.not_eq_false]

theorem refused_of_fault (h : ∃ f ∈ faults vs (read vs), f.variable = name) : Refused vs name := by
  simp only [faults, exists_mem_append, or_assoc] at h
  rcases h with h | h | h | h | h | h | h | h | h | h | h | h
  · obtain ⟨unknown, rfl⟩ := exists_mem_faultIf.1 h
    exact .mode (mode?_eq_none.1 unknown)
  · obtain ⟨outside, rfl⟩ := exists_mem_faultIf.1 h
    exact .port ((outside_wholeNumber 1 65535 4000).1 outside)
  · obtain ⟨illegal, rfl⟩ := exists_mem_faultIf.1 h
    exact .schemaName (illegal_iff.1 illegal)
  · obtain ⟨low, rfl⟩ := exists_mem_faultIf.1 h
    exact .dimensions ((wholeNumber_lt_one 1536).1 low)
  · obtain ⟨low, rfl⟩ := exists_mem_faultIf.1 h
    exact .count ((wholeNumber_lt_one 5).1 low)
  · obtain ⟨outside, rfl⟩ := exists_mem_faultIf.1 h
    exact .attempts ((outside_wholeNumber 0 10 2).1 outside)
  · exact refused_of_unitFault (by simp [shares]) h
  · exact refused_of_unitFault (by simp [shares]) h
  · exact refused_of_unitFault (by simp [shares]) h
  · exact refused_of_unitFault (by simp [shares]) h
  · exact refused_of_unitFault (by simp [shares]) h
  · obtain ⟨above, rfl⟩ := exists_mem_faultIf.1 h
    exact .order (review_above_iff.1 above)

theorem fault_of_refused (h : Refused vs name) :
    ∃ f ∈ faults vs (read vs), f.variable = name := by
  simp only [faults, exists_mem_append]
  cases h with
  | mode unknown =>
    have failed := mode?_eq_none.2 unknown
    simp [exists_mem_faultIf, failed]
  | port outside =>
    have failed : Configuration.outside 1 65535 (read vs).port = true :=
      (outside_wholeNumber 1 65535 4000).2 outside
    simp [exists_mem_faultIf, failed]
  | schemaName illegal =>
    have failed : (!(read vs).vectors.schemaName.toList.all isSchemaChar) = true :=
      illegal_iff.2 illegal
    simp only [exists_mem_faultIf, failed, ConfigurationFault.variable_invalid, and_self, true_or,
      or_true]
  | dimensions low =>
    have failed : (read vs).search.embeddingDimensions.lt 1 = true :=
      (wholeNumber_lt_one 1536).2 low
    simp [exists_mem_faultIf, failed]
  | count low =>
    have failed : (read vs).search.topK.lt 1 = true := (wholeNumber_lt_one 5).2 low
    simp [exists_mem_faultIf, failed]
  | attempts outside =>
    have failed : Configuration.outside 0 10 (read vs).retry.maxAttempts = true :=
      (outside_wholeNumber 0 10 2).2 outside
    simp [exists_mem_faultIf, failed]
  | @share v listed outside =>
    simp only [shares, List.mem_cons, List.not_mem_nil, or_false] at listed
    -- Which disjunct is proved follows the order in which the shares are checked.
    rcases listed with rfl | rfl | rfl | rfl | rfl
    · have failed := exists_mem_unitFault.2 ⟨outside, rfl⟩
      exact .inl (.inl (.inl (.inl (.inl (.inr failed)))))
    · have failed := exists_mem_unitFault.2 ⟨outside, rfl⟩
      exact .inl (.inl (.inl (.inl (.inr failed))))
    · have failed := exists_mem_unitFault.2 ⟨outside, rfl⟩
      exact .inl (.inl (.inl (.inr failed)))
    · have failed := exists_mem_unitFault.2 ⟨outside, rfl⟩
      exact .inl (.inl (.inr failed))
    · have failed := exists_mem_unitFault.2 ⟨outside, rfl⟩
      exact .inl (.inr failed)
  | order above =>
    have failed := review_above_iff.2 above
    simp [exists_mem_faultIf, failed]

theorem exists_fault_iff :
    (∃ f ∈ faults vs (read vs), f.variable = name) ↔ Refused vs name :=
  ⟨refused_of_fault, fault_of_refused⟩

theorem ofVariables_eq_error :
    ofVariables vs = .error fs ↔ faults vs (read vs) = fs ∧ fs ≠ [] := by
  cases h : faults vs (read vs) with
  | nil =>
    simp only [ofVariables, h, reduceCtorEq, false_iff, not_and, not_not]
    exact Eq.symm
  | cons f rest =>
    simp only [ofVariables, h, Except.error.injEq, iff_self_and]
    rintro rfl
    exact List.cons_ne_nil f rest

theorem ofVariables_eq_ok :
    ofVariables vs = .ok c ↔ (∀ name, ¬Refused vs name) ∧ c = read vs := by
  have none_iff : faults vs (read vs) = [] ↔ ∀ name, ¬Refused vs name := by
    simp only [← exists_fault_iff, List.eq_nil_iff_forall_not_mem]
    constructor
    · rintro none name ⟨f, listed, -⟩
      exact none f listed
    · intro none f listed
      exact none f.variable ⟨f, listed, rfl⟩
  rw [← none_iff]
  cases h : faults vs (read vs) with
  | nil => simp [ofVariables, h, eq_comm]
  | cons f rest => simp [ofVariables, h]

theorem wholeNumber_of_gives (given : Gives vs name x) : vs.wholeNumber name fallback = x := by
  obtain ⟨s, filled, rfl, known⟩ := given
  have number : (Number.wholeOfStart s).isNaN = false := by
    rw [← Bool.not_eq_true]
    exact mt Number.eq_nan_of_isNaN known
  simp [Variables.wholeNumber, filled, Variables.orFallback, number]

theorem wholeNumber_cases (vs : Variables) (name : String) (fallback : Number) :
    Gives vs name (vs.wholeNumber name fallback) ∨ vs.wholeNumber name fallback = fallback := by
  unfold Variables.wholeNumber
  cases filled : vs.filled? name with
  | none => exact .inr rfl
  | some s =>
    simp only [Variables.orFallback]
    split
    · exact .inr rfl
    · rename_i number
      refine .inl ⟨s, filled, rfl, ?_⟩
      rintro nan
      exact number (by rw [nan]; rfl)

theorem forall_gives_iff {P : Number → Prop} (otherwise : P fallback) :
    (∀ x, Gives vs name x → P x) ↔ P (vs.wholeNumber name fallback) := by
  constructor
  · intro h
    rcases wholeNumber_cases vs name fallback with given | same
    · exact h _ given
    · rwa [same]
  · intro h x given
    rwa [wholeNumber_of_gives given] at h

theorem policies_engine (c : Configuration) : c.engine.policies =
    [c.policy c.search.embeddingTimeout, c.policy c.search.searchTimeout,
      c.policy c.answers.modelTimeout] := rfl

theorem timed_engine : Timed c.engine ↔
    (∀ limit ∈ [c.search.embeddingTimeout, c.search.searchTimeout, c.answers.modelTimeout],
      Number.lt 0 limit = true) ∧
    Number.le 0 c.retry.initialDelay = true ∧ Number.le 0 c.retry.maxDelay = true := by
  constructor
  · rintro ⟨limits, initialDelays, maxDelays⟩
    simp only [policies_engine, policy, List.forall_mem_cons] at limits initialDelays maxDelays
    refine ⟨?_, initialDelays.1, maxDelays.1⟩
    simpa using limits
  · rintro ⟨limits, initialDelay, maxDelay⟩
    refine ⟨?_, ?_, ?_⟩
    · simpa [policies_engine, policy] using limits
    · simpa [policies_engine, policy] using initialDelay
    · simpa [policies_engine, policy] using maxDelay

theorem timed_engine_read : Timed (read vs).engine ↔ GivesTimes vs := by
  have initialDelay : Number.le 0 (read vs).retry.initialDelay = true ↔
      ∀ x, Gives vs "AI_RETRY_INITIAL_DELAY_MS" x → Number.le 0 x = true :=
    (forall_gives_iff (P := fun x => Number.le 0 x = true) (by decide)).symm
  have maxDelay : Number.le 0 (read vs).retry.maxDelay = true ↔
      ∀ x, Gives vs "AI_RETRY_MAX_DELAY_MS" x → Number.le 0 x = true :=
    (forall_gives_iff (P := fun x => Number.le 0 x = true) (by decide)).symm
  have embedding : Number.lt 0 (read vs).search.embeddingTimeout = true ↔
      ∀ x, Gives vs "EMBEDDING_TIMEOUT_MS" x → Number.lt 0 x = true :=
    (forall_gives_iff (P := fun x => Number.lt 0 x = true) (by decide)).symm
  have search : Number.lt 0 (read vs).search.searchTimeout = true ↔
      ∀ x, Gives vs "VECTOR_SEARCH_TIMEOUT_MS" x → Number.lt 0 x = true :=
    (forall_gives_iff (P := fun x => Number.lt 0 x = true) (by decide)).symm
  have model : Number.lt 0 (read vs).answers.modelTimeout = true ↔
      ∀ x, Gives vs "MODEL_TIMEOUT_MS" x → Number.lt 0 x = true :=
    (forall_gives_iff (P := fun x => Number.lt 0 x = true) (by decide)).symm
  rw [timed_engine, List.forall_mem_cons, List.forall_mem_cons, List.forall_mem_singleton,
    embedding, search, model, initialDelay, maxDelay]
  constructor
  · rintro ⟨limits, pauses⟩
    exact ⟨by simpa [limitVariables] using limits, by simpa [pauseVariables] using pauses⟩
  · rintro ⟨limits, pauses⟩
    exact ⟨by simpa [limitVariables] using limits, by simpa [pauseVariables] using pauses⟩

theorem checked_engine_read (accepted : ∀ name, ¬Refused vs name) : Checked (read vs).engine := by
  have share (v : String × Number) (listed : v ∈ shares) : Within 0 1 (vs.decimal v.1 v.2) :=
    not_not.1 fun outside => accepted _ (.share listed outside)
  have attempts : Within 0 10 (read vs).retry.maxAttempts :=
    not_not.1 fun outside => accepted _ (.attempts outside)
  exact {
    eligible := share ("ELIGIBLE_CONFIDENCE_THRESHOLD", .nearest (8 / 10)) (by simp [shares])
    review := share ("REVIEW_CONFIDENCE_THRESHOLD", .nearest (5 / 10)) (by simp [shares])
    escalation := share ("ESCALATION_CONFIDENCE_THRESHOLD", .nearest (6 / 10)) (by simp [shares])
    ordered := not_not.1 fun above => accepted _ (.order above)
    minSimilarity := share ("RETRIEVAL_MIN_SIMILARITY", .nearest (7 / 10)) (by simp [shares])
    noContextConfidenceCap :=
      share ("NO_CONTEXT_CONFIDENCE_CAP", .nearest (5 / 10)) (by simp [shares])
    count := not_not.1 fun low => accepted _ (.count low)
    dimensions := ⟨_, rfl, not_not.1 fun low => accepted _ (.dimensions low)⟩
    policies := rfl
    attempts := by simpa [policies_engine, policy] using attempts }

theorem message_eq (f : ConfigurationFault) :
    ∃ complaint, f.message = f.variable ++ ": " ++ complaint := by
  cases f with
  | invalid name shown demand =>
    have joined : ": Invalid value \"" = ": " ++ "Invalid value \"" := by decide
    refine ⟨"Invalid value \"" ++ shown ++ "\". " ++ demand, ?_⟩
    simp only [ConfigurationFault.message, ConfigurationFault.variable_invalid, joined,
      String.append_assoc]
  | reviewAboveEligible => exact ⟨"Must not exceed ELIGIBLE_CONFIDENCE_THRESHOLD.", by decide⟩

theorem exists_line {lines : List String} {line : String} (listed : line ∈ lines) :
    ∃ before after, "\n" ++ String.intercalate "\n" lines = before ++ "\n" ++ line ++ after := by
  induction lines with
  | nil => cases listed
  | cons l rest ih =>
    cases rest with
    | nil =>
      obtain rfl := List.mem_singleton.1 listed
      exact ⟨"", "", by simp⟩
    | cons m rest =>
      rw [String.intercalate_cons_cons]
      rcases List.mem_cons.1 listed with rfl | later
      · exact ⟨"", "\n" ++ String.intercalate "\n" (m :: rest), by simp [String.append_assoc]⟩
      · obtain ⟨before, after, split⟩ := ih later
        refine ⟨"\n" ++ l ++ before, after, ?_⟩
        calc "\n" ++ (l ++ "\n" ++ String.intercalate "\n" (m :: rest))
            = "\n" ++ l ++ ("\n" ++ String.intercalate "\n" (m :: rest)) := by
              simp only [String.append_assoc]
          _ = "\n" ++ l ++ before ++ "\n" ++ line ++ after := by
              simp only [split, String.append_assoc]

theorem exists_message_line (listed : f ∈ fs) :
    ∃ before after, (ConfigurationFault.failure fs).message =
      before ++ "\n  - " ++ f.variable ++ ": " ++ after := by
  obtain ⟨complaint, complained⟩ := message_eq f
  obtain ⟨before, after, split⟩ :=
    exists_line (List.mem_map_of_mem (f := fun f => "  - " ++ f.message) listed)
  have headed : "Environment validation failed:\n" = "Environment validation failed:" ++ "\n" := by
    decide
  have indented : "\n  - " = "\n" ++ "  - " := by decide
  refine ⟨"Environment validation failed:" ++ before, complaint ++ after, ?_⟩
  rw [ConfigurationFault.failure, Failure.general, headed, String.append_assoc, split, complained,
    indented]
  simp only [String.append_assoc]

theorem load_eq (vs : Variables) (kept : Option Configuration) :
    load vs kept = match kept with
      | some c => (.ok c, some c)
      | none => (ofVariables vs, (ofVariables vs).toOption) := by
  cases kept with
  | some c => rfl
  | none => cases read : ofVariables vs <;> simp [load, read, Except.toOption]

/-- What is kept after some calls is the configuration of the first environment accepted. -/
theorem kept_after (calls : List Variables) (kept : Option Configuration) :
    calls.foldl (fun kept vs => (load vs kept).2) kept =
      kept.or (calls.findSome? fun vs => (ofVariables vs).toOption) := by
  induction calls generalizing kept with
  | nil => simp
  | cons vs calls ih =>
    rw [List.foldl_cons, ih, load_eq]
    cases kept with
    | some c => simp only [Option.some_or]
    | none => cases read : (ofVariables vs).toOption <;> simp [read]

/-- Which environments are accepted, what the engine can rely on in an accepted one and what it
cannot, what the failure of a refused one says, and which environment a later call looks at. -/
theorem accepted_settings_checked_but_for_times (vs : Variables) :
    ((∃ c, ofVariables vs = .ok c) ↔ ∀ name, ¬Refused vs name) ∧
    (∀ c, ofVariables vs = .ok c → Checked c.engine ∧ (Timed c.engine ↔ GivesTimes vs)) ∧
    (∀ fs, ofVariables vs = .error fs →
      (∀ name, (∃ f ∈ fs, f.variable = name) ↔ Refused vs name) ∧
      ∀ f ∈ fs, ∃ before after, (ConfigurationFault.failure fs).message =
        before ++ "\n  - " ++ f.variable ++ ": " ++ after) ∧
    ∀ calls : List Variables, (load vs (calls.foldl (fun kept vs => (load vs kept).2) none)).1 =
      match calls.findSome? fun vs => (ofVariables vs).toOption with
      | some c => .ok c
      | none => ofVariables vs := by
  refine ⟨?_, ?_, ?_, ?_⟩
  · constructor
    · rintro ⟨c, read⟩
      exact (ofVariables_eq_ok.1 read).1
    · intro accepted
      exact ⟨read vs, ofVariables_eq_ok.2 ⟨accepted, rfl⟩⟩
  · intro c read
    obtain ⟨accepted, rfl⟩ := ofVariables_eq_ok.1 read
    exact ⟨checked_engine_read accepted, timed_engine_read⟩
  · intro fs refused
    obtain ⟨rfl, -⟩ := ofVariables_eq_error.1 refused
    exact ⟨fun name => exists_fault_iff, fun f listed => exists_message_line listed⟩
  · intro calls
    rw [kept_after, load_eq, Option.none_or]
    cases calls.findSome? fun vs => (ofVariables vs).toOption with
    | none => simp only
    | some c => simp only

def negativeLimit : Variables := [("EMBEDDING_TIMEOUT_MS", "-5")]

theorem negative_limit_accepted :
    ¬∀ vs c, ofVariables vs = .ok c → Checked c.engine ∧ Timed c.engine := by
  intro claimed
  have accepted : ofVariables negativeLimit = .ok (read negativeLimit) := by
    have none : faults negativeLimit (read negativeLimit) = [] := by decide +kernel
    simp only [ofVariables, none]
  have positive := (timed_engine_read.1 (claimed _ _ accepted).2).limits "EMBEDDING_TIMEOUT_MS"
    (by simp [limitVariables]) (-5) ⟨"-5", by decide, by decide +kernel, by decide⟩
  exact absurd positive (by decide)

end Configuration
end VisaEligibility
