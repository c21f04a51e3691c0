import VisaEligibility.Proofs.Bench.Services
import VisaEligibility.Proofs.Check.Decisions
import VisaEligibility.Proofs.Response.Citations
import VisaEligibility.Proofs.Retrieval.Ranking
/-!
What stored citations point at. Each one stands for a chunk that the prompt of its log shows under
the number that the answer marks; a search over stored chunks has found it for the case.
-/
set_option autoImplicit false

namespace VisaEligibility

open Program

namespace Chunk

variable {c : Chunk} {chunks : List Chunk} {f : ChunkFilters} {topK minSimilarity : Number}

theorem get?_of_meets (hc : c.meets f = true) {key text : String}
    (hk : (key, text) ∈ f.conditions) : Entries.get? c.metadata key = some (.text text) := by
  have met := List.all_eq_true.1 hc _ hk
  dsimp only at met
  split at met
  · rename_i found
    rw [found, eq_of_beq met]
  · cases met

theorem mem_conditions {text : String} (given : text ≠ "") :
    (f.visaCode = some text → ("visaCode", text) ∈ f.conditions) ∧
      (f.jurisdiction = some text → ("jurisdiction", text) ∈ f.conditions) := by
  constructor <;>
  · intro filter
    simp [ChunkFilters.conditions, filter, given]

end Chunk

namespace Prompt

theorem chunkTexts_eq (chunks : List Chunk) (place : Nat) :
    chunkTexts place chunks = chunks.mapIdx fun i c => chunkText (place + i) c := by
  induction chunks generalizing place with
  | nil => rfl
  | cons c cs ih =>
    have next (i : Nat) : place + 1 + i = place + (i + 1) := by omega
    rw [chunkTexts, ih, List.mapIdx_cons]
    simp only [next, Nat.add_zero]

theorem context_eq {chunks : List Chunk} (some : chunks ≠ []) :
    context chunks = String.intercalate "\n\n---\n\n"
      (chunks.mapIdx fun i c => chunkText (i + 1) c) := by
  rw [context, if_neg (mt List.isEmpty_iff.1 some), chunkTexts_eq]
  simp only [Nat.add_comm 1]

theorem lines_closed {body : List String} (some : body ≠ []) (context : String) :
    lines (body ++ ["", "Regulatory context:", context, "", request]) =
      lines body ++ "\n\nRegulatory context:\n" ++ context ++ "\n\n" ++
        ("Assess whether the case is eligible for this visa type. Explain which " ++
          "requirements are met and which are not, citing the context with [1], [2], etc. where " ++
          "relevant.") := by
  have titled : "\n\nRegulatory context:\n" =
      "\n" ++ "" ++ "\n" ++ "Regulatory context:" ++ "\n" := by decide
  have parted : "\n\n" = "\n" ++ "" ++ "\n" := by decide
  have asked : request = "Assess whether the case is eligible for this visa type. Explain which " ++
      ("requirements are met and which are not, citing the context with [1], [2], etc. where " ++
        "relevant.") := by decide +kernel
  rw [lines, String.intercalate_append_of_ne_nil some (List.cons_ne_nil _ _), titled, parted, asked]
  simp only [lines, String.intercalate_cons_cons, String.intercalate_singleton, String.append_assoc]

theorem exists_messages {chunks : List Chunk} {rule : RuleFindings} {facts : Facts}
    {visaCode : String} {p : Prompt} (hp : ofCase chunks rule facts visaCode = .ok p) :
    ∃ system front user, p.messages = [⟨.system, system⟩, ⟨.user, user⟩] ∧
      p.text = "SYSTEM:\n" ++ system ++ "\n\nUSER:\n" ++ user ∧
      user = front ++ "\n\nRegulatory context:\n" ++ context chunks ++ "\n\n" ++
        ("Assess whether the case is eligible for this visa type. Explain which " ++
          "requirements are met and which are not, citing the context with [1], [2], etc. where " ++
          "relevant.") := by
  unfold ofCase at hp
  cases written : factLines facts with
  | error e =>
    rw [written] at hp
    cases hp
  | ok fs =>
    rw [written] at hp
    cases hp
    exact ⟨instructions, _, _, rfl, text_pair _ _, lines_closed (by simp) _⟩

end Prompt

namespace Check

open Response

variable {s : EngineSettings} {r : CheckRequest} {facts : Facts} {h : History Call.interface}

/-- A citation under a log stands for a chunk: the one shown at its place and under its number, and
one that the search has found for the case. -/
structure Cites (s : EngineSettings) (r : CheckRequest) (v : RuleVersion) (log : ReasoningLog)
    (shown : List Chunk) (sections : List String) (n : Nat) (x : Citation) (c : Chunk) :
    Prop where
  named : x.reasoningLogId = log.id
  place : shown[n - 1]? = some c
  heading : sections[n - 1]? = some ("[" ++ toString n ++ "] Document " ++ c.documentVersionId ++
    " (similarity " ++ c.similarity.hundredths ++ ")\n" ++ c.text)
  version : x.excerpt.documentVersionId = c.documentVersionId
  relevance : x.excerpt.relevance = c.similarity
  excerpt : x.excerpt.text.toList = c.text.toList.take 500
  similar : s.retrieval.minSimilarity.le c.similarity = true
  ofVisa : v.visaCode ≠ "" → Entries.get? c.metadata "visaCode" = some (.text v.visaCode)
  ofJurisdiction : ∀ j, r.jurisdiction = some j → j ≠ "" →
    Entries.get? c.metadata "jurisdiction" = some (.text j)

/-- What is stored of an answer that cites: its log with the prompt that the model was given, which
shows so many chunks at most as numbered sections, and the citations of those that the answer
marks. -/
structure Cited (s : EngineSettings) (r : CheckRequest) (store : List Chunk) (most : Nat)
    (h : History Call.interface) (v : RuleVersion) (log : ReasoningLog) (shown : List Chunk)
    (sections : List String) (places : List Nat) : Prop where
  version : readVersions h = [v]
  logged : storedLogs h = [log]
  asked : ∃ (system front user : String) (a : ModelAnswer) (limit : Option Number),
    answers h = [a] ∧ log.responseText = a.text ∧
    ⟨.completion [⟨.system, system⟩, ⟨.user, user⟩]
      ⟨s.reasoning.temperature, s.reasoning.maxTokens⟩ limit, .ok a⟩ ∈ h ∧
    log.prompt = "SYSTEM:\n" ++ system ++ "\n\nUSER:\n" ++ user ∧
    user = front ++ "\n\nRegulatory context:\n" ++ String.intercalate "\n\n---\n\n" sections ++
      "\n\n" ++ ("Assess whether the case is eligible for this visa type. Explain which " ++
        "requirements are met and which are not, citing the context with [1], [2], etc. where " ++
        "relevant.")
  ranked : ∃ found, findings h = [found] ∧
    shown = Chunk.rank found s.retrieval.topK s.retrieval.minSimilarity
  numbered : sections = shown.mapIdx fun i c => "[" ++ toString (i + 1) ++ "] Document " ++
    c.documentVersionId ++ " (similarity " ++ c.similarity.hundredths ++ ")\n" ++ c.text
  length : shown.length ≤ most
  marked : ∀ n, n ∈ places ↔ Marks log.responseText.toList n ∧ 1 ≤ n ∧ n ≤ shown.length
  nodup : places.Nodup
  ordered : places.Pairwise (MarksFirst log.responseText.toList)
  cited : List.Forall₂ (fun n x => ∃ c ∈ store, Cites s r v log shown sections n x c) places
    (storedCitations h)
  few : (storedCitations h).length ≤ most

theorem Storing.cited {d : Decision} {x : Except Raised Stored} (hs : Storing s r d h x) :
    storedCitations h = [] ∨ ∃ c id time, d.ai.completed = some c ∧
      storedLogs h = [logOf r.caseId c id time] ∧
      storedCitations h = c.excerpts.map (Citation.mk id) := by
  have answer {h : History Call.interface}
      {y : Except Raised (Option ReasoningLog × List Citation)}
      (ha : AnswerStored r.caseId d.ai h y) :
      storedCitations h = [] ∨ ∃ c id time, d.ai.completed = some c ∧
        storedLogs h = [logOf r.caseId c id time] ∧
        storedCitations h = c.excerpts.map (Citation.mk id) := by
    cases ha with
    | unanswered hp => exact .inl rfl
    | logFailed hp id time e => exact .inl rfl
    | uncited hp id time none => exact .inl rfl
    | citationsFailed hp id time some e => exact .inl rfl
    | @cited c hp id time some =>
      exact .inr ⟨c, id, time, hp, rfl, by simp [storedCitations, citationsOf, stamp]⟩
  have last {h : History Call.interface} (id : String) (time : Instant) (y : EligibilityResult)
      (w : Except Raised Unit) : storedCitations (h ++ saving id time y w) = storedCitations h ∧
        storedLogs (h ++ saving id time y w) = storedLogs h := by
    have silent : storedCitations (saving id time y w) = [] ∧
        storedLogs (saving id time y w) = [] := ⟨rfl, rfl⟩
    rw [storedCitations_append, storedLogs_append, silent.1, silent.2, List.append_nil,
      List.append_nil]
    exact ⟨rfl, rfl⟩
  cases hs with
  | answerLost ha => exact answer ha
  | resultFailed ha id time e =>
    rw [(last _ _ _ _).1, (last _ _ _ _).2]
    exact answer ha
  | stored ha id time =>
    rw [(last _ _ _ _).1, (last _ _ _ _).2]
    exact answer ha

section Answers

variable {store : List Chunk} {v : RuleVersion} {c : Assessment} {k : Nat}

theorem found_of_prompted {i : AssessmentInput}
    (prompted : Reasoning.Prompted s.retrieval s.reasoning i h c) (searches : Searches store h)
    {chunk : Chunk} (hc : chunk ∈ c.chunks) : chunk ∈ store ∧
      s.retrieval.minSimilarity.le chunk.similarity = true ∧
      chunk.meets ⟨some i.visaCode, i.jurisdiction⟩ = true := by
  obtain ⟨vector, limit, found, search, -, ranked⟩ := prompted.searched
  rw [ranked] at hc
  obtain ⟨known, similar⟩ := Chunk.of_mem_rank hc
  rw [searches _ _ _ _ _ _ search, List.mem_filter] at known
  exact ⟨known.1, similar, (Bool.and_eq_true_iff.1 known.2).2⟩

theorem forall₂_cites {rule : RuleEvaluation} {sections : List String} (id : String) (time : Instant)
    (prompted : Reasoning.Prompted s.retrieval s.reasoning (reasoningInput r facts rule) h c)
    (searches : Searches store h) (code : rule.visaCode = v.visaCode)
    (numbered : sections = c.chunks.mapIdx fun i chunk => Prompt.chunkText (i + 1) chunk) :
    List.Forall₂ (fun n x => ∃ chunk ∈ store,
        Cites s r v (logOf r.caseId c id time) c.chunks sections n x chunk)
      (citedPlaces c.answer.text c.chunks.length) (c.excerpts.map (Citation.mk id)) := by
  have same : c.excerpts = excerpts c.answer.text c.chunks :=
    congrArg Assessment.excerpts prompted.read
  rw [same, List.forall₂_map_right_iff]
  refine (forall₂_excerpts c.chunks).imp ?_
  rintro n e ⟨low, chunk, place, rfl⟩
  obtain ⟨stored, similar, meets⟩ :=
    found_of_prompted prompted searches (List.mem_of_getElem? place)
  have number : n - 1 + 1 = n := by omega
  refine ⟨chunk, stored, rfl, place, ?_, rfl, rfl, String.toList_ofList, similar, ?_, ?_⟩
  · rw [numbered, List.getElem?_mapIdx, place, Option.map_some, number]
    rfl
  · intro given
    exact Chunk.get?_of_meets meets ((Chunk.mem_conditions given).1 (congrArg some code))
  · intro j hj given
    exact Chunk.get?_of_meets meets ((Chunk.mem_conditions given).2 hj)

theorem Course.cited {x : Except Raised CheckReport} (course : Course s r facts h x)
    (natural : s.retrieval.topK = .finite k) (searches : Searches store h) :
    storedCitations h = [] ∨ ∃ v log shown sections places,
      Cited s r store k h v log shown sections places := by
  rcases course.decides with quiet | ⟨d, h', z, decides, storing, -, logs, citations⟩
  · exact .inl (unstored_of_quiet quiet).2.2
  rcases storing.cited with none | ⟨c, id, time, completed, log, stored⟩
  · exact .inl (citations.trans none)
  have prompted := decides.prompted c completed
  obtain ⟨v, read, ruled⟩ := decides.version
  obtain ⟨limit, asked⟩ := prompted.asked
  obtain ⟨-, -, found, -, finding, ranked⟩ := prompted.searched
  obtain ⟨sections, numbered⟩ : ∃ sections, sections = c.chunks.mapIdx fun i chunk =>
      Prompt.chunkText (i + 1) chunk := ⟨_, rfl⟩
  have cites := forall₂_cites id time prompted searches (congrArg RuleEvaluation.visaCode ruled)
    numbered
  by_cases none : c.chunks = []
  · have uncited : c.excerpts = [] := by
      rw [congrArg Assessment.excerpts prompted.read, none]
      exact excerpts_nil c.answer.text
    rw [citations, stored, uncited]
    exact .inl rfl
  obtain ⟨system, front, user, messages, text, ends⟩ := Prompt.exists_messages prompted.prompted
  rw [messages] at asked
  rw [Prompt.context_eq none, ← numbered] at ends
  have length : c.chunks.length ≤ k := by
    rw [ranked, natural]
    exact Chunk.length_rank_le found k _
  refine .inr ⟨v, logOf r.caseId c id time, c.chunks, sections,
    citedPlaces c.answer.text c.chunks.length, ?_⟩
  constructor
  case version => exact read
  case logged => exact logs.trans log
  case asked =>
    exact ⟨system, front, user, c.answer, limit, prompted.answered, rfl, asked, text, ends⟩
  case ranked => exact ⟨found, finding, ranked⟩
  case numbered => exact numbered
  case length => exact length
  case marked => exact fun n => mem_citedPlaces
  case nodup => exact nodup_citedPlaces
  case ordered => exact pairwise_citedPlaces
  case cited =>
    rw [citations, stored]
    exact cites
  case few =>
    rw [citations, stored, ← cites.length_eq]
    exact length_citedPlaces_le.trans length

end Answers

/-- A check that searches a store of chunks, as a bench does, stores no citations or those of the
chunks that the answer marks: each one, once and in the order of the answer, with what it says of
its chunk, among the chunks of the case that the model was shown under the same numbers. -/
theorem citations_shown (s : EngineSettings) (r : CheckRequest) {k : Nat}
    (natural : s.retrieval.topK = .finite k) :
    (∀ w : BenchWorld, Searches w.state.chunks
      (record (Clock.World.answer Bench.environment) (run s r) w)) ∧
    ∀ store h x, Returns (run s r) h x → Searches store h → storedCitations h = [] ∨
      ∃ v log shown sections places, Cited s r store k h v log shown sections places := by
  refine ⟨fun w => Bench.searches_record _ w, fun store h x hr searches => ?_⟩
  rcases returns_run.1 hr with ⟨e, -, rfl⟩ | ⟨facts, h', rfl, course⟩
  · exact .inl rfl
  have later : Searches store h' := fun _ _ _ _ _ _ hx =>
    searches _ _ _ _ _ _ (List.mem_cons_of_mem _ hx)
  rcases course.cited natural later with none | ⟨v, log, shown, sections, places, cited⟩
  · exact .inl none
  · obtain ⟨system, front, user, a, limit, answered, response, asked, texts⟩ := cited.asked
    refine .inr ⟨v, log, shown, sections, places, { cited with asked := ⟨system, front, user, a,
      limit, answered, response, List.mem_cons_of_mem _ asked, texts⟩ }⟩

def visaChunks : List Chunk :=
  [⟨"chunk-1", "version-1", .ofMillis 0, "Points test", .nearest (8 / 10),
      [("visaCode", .text "SKW")]⟩,
    ⟨"chunk-2", "version-2", .ofMillis 0, "Age limit", .nearest (9 / 10),
      [("visaCode", .text "SKW")]⟩,
    ⟨"chunk-3", "version-3", .ofMillis 0, "Funds", 1, [("visaCode", .text "STU")]⟩]

def citingWorld : (c : Call) → Call.Reply c
  | .search _ filters _ minSimilarity _ =>
    .ok (visaChunks.filter fun c => minSimilarity.le c.similarity && c.meets filters)
  | .embedding _ _ => .ok [1]
  | .completion _ _ _ =>
    .ok ⟨"Too old [02]. Points [1], as [2] says [3].\nOUTCOME: not_eligible", "mock-model", none⟩
  | c => bareWorld { (default : RuleVersion) with visaCode := "SKW" } (.ok ()) (.ok ()) c

def citingRun : History Call.interface × Except Raised CheckReport :=
  trace citingWorld (run vagueSettings { bareRequest with enableAi := none })

theorem searches_citingRun : Searches visaChunks citingRun.1 := by
  intro vector filters topK minSimilarity limit found hx
  have answered := eq_of_mem_trace hx
  injection answered with _ reply
  exact Except.ok.inj reply

theorem headings_citingRun : ((findings citingRun.1).map fun found =>
    (Chunk.rank found vagueSettings.retrieval.topK vagueSettings.retrieval.minSimilarity).mapIdx
      fun i c => "[" ++ toString (i + 1) ++ "] Document " ++ c.documentVersionId ++
        " (similarity " ++ c.similarity.hundredths ++ ")\n" ++ c.text) =
    [["[1] Document version-2 (similarity 0.90)\nAge limit",
      "[2] Document version-1 (similarity 0.80)\nPoints test"]] := by decide +kernel

def citingContext : String :=
  "\n\nRegulatory context:\n[1] Document version-2 (similarity 0.90)\nAge limit\n\n---\n\n" ++
    "[2] Document version-1 (similarity 0.80)\nPoints test\n\nAssess whether the case is " ++
    "eligible for this visa type. Explain which requirements are met and which are not, citing " ++
    "the context with [1], [2], etc. where relevant."

/-- The chunk of the first version is shown second and cited first; there is no third place. -/
theorem citations_shown_twice : ∃ v log shown sections places,
    Cited vagueSettings { bareRequest with enableAi := none } visaChunks 5 citingRun.1 v log shown
      sections places ∧
    (storedCitations citingRun.1).map (·.excerpt.documentVersionId) =
      ["version-1", "version-2"] ∧
    ∃ front, log.prompt = front ++ citingContext := by
  have hr : Returns (run vagueSettings { bareRequest with enableAi := none }) citingRun.1
      citingRun.2 := returns_trace (I := Call.interface) _ _
  have natural : vagueSettings.retrieval.topK = .finite (5 : Nat) := by decide +kernel
  have stored : (storedCitations citingRun.1).map (·.excerpt.documentVersionId) =
      ["version-1", "version-2"] := by decide +kernel
  rcases (citations_shown _ _ natural).2 _ _ _ hr searches_citingRun with
    none | ⟨v, log, shown, sections, places, cited⟩
  · simp [none] at stored
  obtain ⟨found, finding, ranked⟩ := cited.ranked
  have headed := headings_citingRun
  rw [finding] at headed
  have numbered := (ranked ▸ cited.numbered).trans (List.singleton_inj.1 headed)
  obtain ⟨system, front, user, -, -, -, -, -, prompt, closing⟩ := cited.asked
  refine ⟨v, log, shown, sections, places, cited, stored,
    "SYSTEM:\n" ++ system ++ "\n\nUSER:\n" ++ front, ?_⟩
  have closed : "\n\nRegulatory context:\n" ++ (String.intercalate "\n\n---\n\n" sections ++
      ("\n\n" ++ ("Assess whether the case is eligible for this visa type. Explain which " ++
        ("requirements are met and which are not, citing the context with [1], [2], etc. where " ++
          "relevant.")))) = citingContext := by
    rw [numbered]
    decide +kernel
  rw [prompt, closing, ← closed]
  simp only [String.append_assoc]

end Check
end VisaEligibility
