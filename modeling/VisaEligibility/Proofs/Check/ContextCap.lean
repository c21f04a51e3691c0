import VisaEligibility.Proofs.Check.Conclusions
import VisaEligibility.Proofs.Number.Order
import VisaEligibility.Proofs.Verdict.Improvement
/-!
The cap on the confidence of an answer given without context. It bounds the confidence that the
answer states; where the answer states none, the confidence is that of the rules and is not capped.
-/
set_option autoImplicit false

namespace VisaEligibility

open Program

/-- What the combination of a rule verdict with an answer given without context comes to. -/
structure CombinedVerdict.Capped (cap : Number) (rule : RuleVerdict) (t : Thresholds)
    (a : ModelAnswer) (c : CombinedVerdict) : Prop where
  used : c.aiUsed = true ↔ Response.conclusion a.text ≠ none
  stated : c.aiUsed = true → Response.confidence a.text ≠ none →
    cap.lt c.confidence = false ∧
      (cap ≠ .nan → rule.confidence ≠ .nan → c.confidence.le cap = true) ∧
      (cap.lt t.escalation = true → c.escalate = true)
  unstated : Response.confidence a.text = none → c.confidence = rule.confidence

namespace CombinedVerdict

theorem merge_known (rule : RuleVerdict) (c : Conclusion) (confidence : Option Number) :
    (merge rule (some ⟨some c, confidence⟩)).aiUsed = true ∧
      ((merge rule (some ⟨some c, confidence⟩)).confidence = confidence.getD rule.confidence ∨
        (merge rule (some ⟨some c, confidence⟩)).conflict = true ∧
          (merge rule (some ⟨some c, confidence⟩)).confidence =
            rule.confidence.least (confidence.getD rule.confidence)) := by
  simp only [merge, mergeKnown]
  split
  · exact ⟨rfl, .inr ⟨rfl, rfl⟩⟩
  · exact ⟨rfl, .inl rfl⟩

theorem escalate_of_low {rule : RuleVerdict} {ai : Option AiVerdict} {t : Thresholds}
    (low : (merge rule ai).confidence.lt t.escalation = true) :
    (combine rule ai t).escalate = true := by
  simp [combine, escalation, low]

theorem escalate_of_conflict {rule : RuleVerdict} {ai : Option AiVerdict} {t : Thresholds}
    (conflict : (merge rule ai).conflict = true) : (combine rule ai t).escalate = true := by
  simp [combine, escalation, conflict]

theorem within_cap (rule : RuleVerdict) (c : Conclusion) (t : Thresholds) {cap own : Number}
    (stated : own ≠ .nan) (within : cap.lt own = false) :
    cap.lt (combine rule (some ⟨some c, some own⟩) t).confidence = false ∧
      (cap ≠ .nan → rule.confidence ≠ .nan →
        (combine rule (some ⟨some c, some own⟩) t).confidence.le cap = true) ∧
      (cap.lt t.escalation = true →
        (combine rule (some ⟨some c, some own⟩) t).escalate = true) := by
  have below (known : cap ≠ .nan) : own.le cap = true := Number.le_of_not_lt known stated within
  rcases (merge_known rule c (some own)).2 with same | ⟨conflict, least⟩
  · refine ⟨?_, fun known _ => ?_, fun lower => ?_⟩
    · exact (congrArg cap.lt same).trans within
    · exact (congrArg (·.le cap) same).trans (below known)
    · have low := Number.lt_of_le_of_lt (below (Number.lt_iff.1 lower).1) lower
      exact escalate_of_low ((congrArg (·.lt t.escalation) same).trans low)
  · refine ⟨?_, fun known ruled => ?_, fun _ => escalate_of_conflict conflict⟩
    · exact (congrArg cap.lt least).trans (Number.not_lt_least within)
    · exact (congrArg (·.le cap) least).trans
        (Number.le_trans (Number.least_le ruled stated).2 (below known))

theorem confidence_of_unstated (rule : RuleVerdict) (c : Conclusion) (t : Thresholds) :
    (combine rule (some ⟨some c, none⟩) t).confidence = rule.confidence := by
  rcases (merge_known rule c none).2 with same | ⟨-, least⟩
  · exact same
  · exact least.trans (Number.least_self _)

end CombinedVerdict

namespace Reasoning

def underCap (cap own : Number) : Number := if cap.lt own then cap else own

theorem not_lt_underCap (cap own : Number) : cap.lt (underCap cap own) = false := by
  unfold underCap
  split
  · exact Number.lt_irrefl cap
  · rename_i within
    simpa using within

theorem verdict_ofAnswer (cap : Number) (p : Prompt) (a : ModelAnswer) :
    (ofAnswer cap [] p a).verdict =
      ⟨Response.conclusion a.text, (Response.confidence a.text).map (underCap cap)⟩ := by
  unfold ofAnswer exceedsCap Response.verdict
  dsimp only
  cases Response.confidence a.text with
  | none => rfl
  | some own =>
    cases above : cap.lt own with
    | false => simp [above, underCap]
    | true => simp [above, underCap]

theorem ne_nan_of_confidence {text : String} {own : Number}
    (stated : Response.confidence text = some own) : own ≠ .nan := by
  obtain ⟨-, within⟩ := Option.filter_eq_some_iff.1 stated
  obtain ⟨low, -⟩ := Bool.and_eq_true_iff.1 within
  exact (Number.le_iff.1 low).2.1

theorem underCap_ne_nan (cap : Number) {own : Number} (known : own ≠ .nan) :
    underCap cap own ≠ .nan := by
  unfold underCap
  split
  · rename_i above
    exact (Number.lt_iff.1 above).1
  · exact known

theorem capped_ofAnswer (cap : Number) (p : Prompt) (a : ModelAnswer) (rule : RuleVerdict)
    (t : Thresholds) : CombinedVerdict.Capped cap rule t a
      (CombinedVerdict.combine rule (some (ofAnswer cap [] p a).verdict) t) := by
  rw [verdict_ofAnswer]
  cases concluded : Response.conclusion a.text with
  | none =>
    have unused : (CombinedVerdict.combine rule (some ⟨none,
        (Response.confidence a.text).map (underCap cap)⟩) t).aiUsed = false := rfl
    exact ⟨by simp [unused, concluded], fun used => absurd used (by simp [unused]), fun _ => rfl⟩
  | some c =>
    have used := (CombinedVerdict.merge_known rule c
      ((Response.confidence a.text).map (underCap cap))).1
    refine ⟨iff_of_true used (by simp [concluded]), fun _ known => ?_, fun unknown => ?_⟩
    · obtain ⟨own, stated⟩ := Option.ne_none_iff_exists'.1 known
      rw [stated, Option.map_some]
      exact CombinedVerdict.within_cap rule c t (underCap_ne_nan cap (ne_nan_of_confidence stated))
        (not_lt_underCap cap own)
    · rw [unknown]
      exact CombinedVerdict.confidence_of_unstated rule c t

end Reasoning

theorem RuleVersion.confidence_ne_nan (v : RuleVersion) (facts : Facts) (t : Thresholds) :
    (v.evaluate facts t).confidence ≠ .nan := by
  have known (passed total : Nat) : RuleEvaluation.share passed total ≠ .nan :=
    (Number.le_iff.1 (RuleEvaluation.share_mono (Nat.le_refl passed) total)).1
  exact known _ _

namespace Check

variable {s : EngineSettings} {r : CheckRequest} {facts : Facts} {h : History Call.interface}
  {x : Except Raised CheckReport}

/-- The searches of a check have found no chunk that counts. -/
def Bare (s : EngineSettings) (h : History Call.interface) : Prop :=
  ∀ found ∈ findings h, Chunk.rank found s.retrieval.topK s.retrieval.minSimilarity = []

theorem capped_of_decision {asOf : Instant} {d : Decision}
    (decided : Returns (decision s r facts asOf).run h (.ok d)) (bare : Bare s h) {c : Assessment}
    (completed : d.ai.completed = some c) :
    CombinedVerdict.Capped s.reasoning.noContextConfidenceCap d.rule.verdict s.thresholds c.answer
      (d.combined s) := by
  cases Deciding.of_returns decided with
  | @decided v h' ai asked =>
    obtain ⟨found, p, hf, hc⟩ := ((answers_of_askModel asked).2 c completed).read
    have one : findings (⟨.ruleVersion r.visaTypeId asOf, .ok v⟩ :: h') = [found] := hf
    rw [bare found (by simp [one])] at hc
    unfold Decision.combined AiPart.verdict
    rw [completed, Option.map_some, congrArg Assessment.verdict hc]
    exact Reasoning.capped_ofAnswer ..

theorem Course.capped (hc : Course s r facts h x) (bare : Bare s h) :
    (triedResults h = [] ∧ ∃ e, x = .error e) ∨
      ∃ d, Performed s r facts h x d ∧
        ((d.combined s).aiUsed = false ∧ answers h = [] ∨
          ∃ a, answers h = [a] ∧ CombinedVerdict.Capped s.reasoning.noContextConfidenceCap
            d.rule.verdict s.thresholds a (d.combined s)) := by
  rcases hc.followed with ⟨untried, -, ended⟩ |
    ⟨h₁, asOf, h₂, d, h₃, split, dated, decided, follows, reported⟩
  · exact .inl ⟨untried, ended⟩
  have performed : Performed s r facts h x d :=
    split ▸ Performed.of_decided dated decided follows reported
  refine .inr ⟨d, performed, ?_⟩
  cases completed : d.ai.completed with
  | none =>
    refine .inl ⟨?_, ?_⟩
    · rw [Performed.combined_of_unanswered completed]
      rfl
    · rw [split, answers_append, follows.answers, List.append_nil]
      exact (Decided.of_returns dated decided).lost completed
  | some c =>
    have found : Bare s h₂ := fun f hf => bare f (by simp [split, findings_append, hf])
    exact .inr ⟨c.answer, (performed.answered c completed).1,
      capped_of_decision decided found completed⟩

/-- An answer without context that is used and states a confidence is trusted up to the cap at most;
below the threshold of escalation the cap sends the case to review. The confidence of one that
states none is that of the rules. -/
theorem capped_without_context :
    (∀ cap p a rule t, CombinedVerdict.Capped cap rule t a
      (.combine rule (some (Reasoning.ofAnswer cap [] p a).verdict) t)) ∧
    ∀ s r facts h x, Returns (overFacts s r facts) h x → Bare s h →
      (∀ y ∈ triedResults h, ∀ a ∈ answers h, Response.conclusion a.text ≠ none →
        (Response.confidence a.text ≠ none →
          s.reasoning.noContextConfidenceCap.lt y.confidence = false ∧
          (s.reasoning.noContextConfidenceCap ≠ .nan →
            y.confidence.le s.reasoning.noContextConfidenceCap = true) ∧
          (s.reasoning.noContextConfidenceCap.lt s.thresholds.escalation = true →
            y.escalated = true ∧ ∀ n ∈ notifications h,
              ∃ reason, n.call = .requestReview r.caseId reason)) ∧
        (Response.confidence a.text = none → ∃ v, readVersions h = [v] ∧
          y.confidence = (v.evaluate facts s.thresholds).confidence)) ∧
      ∀ y, x = .ok y → y.result ∈ triedResults h ∧ y.combined.confidence = y.result.confidence ∧
        y.combined.escalate = y.result.escalated ∧
        (y.combined.aiUsed = true ↔ ∃ a ∈ answers h, Response.conclusion a.text ≠ none) := by
  refine ⟨fun _ _ _ _ _ => Reasoning.capped_ofAnswer .., fun s r facts h x hr bare => ?_⟩
  rcases (returns_overFacts.1 hr).capped bare with ⟨untried, e, rfl⟩ | ⟨d, performed, used⟩
  · simp [untried]
  obtain ⟨v, read, ruled⟩ := performed.version
  refine ⟨fun y hy a ha concluded => ?_, fun y hy => ?_⟩
  · obtain ⟨log, id, time, rfl⟩ := performed.results y hy
    rcases used with ⟨-, unanswered⟩ | ⟨a', answered, capped⟩
    · simp [unanswered] at ha
    obtain rfl : a = a' := by simpa [answered] using ha
    refine ⟨fun stated => ?_, fun unstated => ⟨v, read, ?_⟩⟩
    · obtain ⟨below, most, escalated⟩ := capped.stated (capped.used.2 concluded) stated
      refine ⟨below, fun known => most known ?_, fun lower => ⟨escalated lower, fun n hn => ?_⟩⟩
      · exact ruled ▸ v.confidence_ne_nan facts s.thresholds
      · obtain ⟨w, rfl⟩ := performed.notified n hn
        rw [notice, if_pos (escalated lower)]
        exact ⟨_, rfl⟩
    · exact (capped.unstated unstated).trans (congrArg RuleEvaluation.confidence ruled)
  · obtain ⟨tried, -, combined⟩ := performed.reported y hy
    obtain ⟨log, id, time, made⟩ := performed.results y.result tried
    rw [combined, made]
    refine ⟨made ▸ tried, rfl, rfl, ?_⟩
    rcases used with ⟨unused, unanswered⟩ | ⟨a, answered, capped⟩
    · simp [unused, unanswered]
    · simpa [answered] using capped.used

def boldRun : History Call.interface × Except Raised CheckReport :=
  trace (answeringWorld default "OUTCOME: not_eligible\nCONFIDENCE: 0.9")
    (overFacts vagueSettings { bareRequest with enableAi := none } .empty)

/-- A confidence of 0.9 stated without context is stored as the cap, and the case goes to review. -/
theorem capped_without_context_bold :
    ∃ y ∈ triedResults boldRun.1, y.confidence.le (.nearest (5 / 10)) = true ∧ y.escalated = true ∧
      y.conclusion = .outcome .notEligible ∧ y.confidence = .nearest (5 / 10) := by
  have hr := returns_trace (I := Call.interface)
    (answeringWorld default "OUTCOME: not_eligible\nCONFIDENCE: 0.9")
    (overFacts vagueSettings { bareRequest with enableAi := none } .empty)
  have bare : Bare vagueSettings boldRun.1 := by
    have empty : ∀ found ∈ findings boldRun.1, found = [] := by decide +kernel
    intro found hf
    rw [empty found hf]
    decide +kernel
  have answered : (answers boldRun.1).map (fun a =>
      ((Response.conclusion a.text).isSome, (Response.confidence a.text).isSome)) =
        [(true, true)] := by decide +kernel
  have stored : (triedResults boldRun.1).map (fun y => (y.conclusion, y.confidence)) =
      [(.outcome .notEligible, .nearest (5 / 10))] := by decide +kernel
  obtain ⟨a, one, known⟩ := List.map_eq_singleton_iff.1 answered
  obtain ⟨y, tried, made⟩ := List.map_eq_singleton_iff.1 stored
  have hm : y ∈ triedResults boldRun.1 := by simp [tried]
  have concluded : Response.conclusion a.text ≠ none :=
    Option.isSome_iff_ne_none.1 (congrArg Prod.fst known)
  have stated : Response.confidence a.text ≠ none :=
    Option.isSome_iff_ne_none.1 (congrArg Prod.snd known)
  have given : a ∈ answers boldRun.1 := by simp [one]
  obtain ⟨-, most, lower⟩ :=
    ((capped_without_context.2 _ _ _ _ _ hr bare).1 y hm a given concluded).1 stated
  exact ⟨y, hm, most (by decide +kernel), (lower (by decide +kernel)).1, congrArg Prod.fst made,
    congrArg Prod.snd made⟩

def certainRule : RuleVersion :=
  { (default : RuleVersion) with
    requirements :=
      [⟨"always", .record [("op", .text "literal"), ("value", .bool true)], true, none⟩] }

theorem verdict_certainRule : (certainRule.evaluate .empty {}).verdict = ⟨.eligible, 1, []⟩ := by
  have read : Expression.ofValue (.record [("op", .text "literal"), ("value", .bool true)]) =
      .ok (.literal (.bool true)) := by
    have small : (Expression.Measure.ofValue
        (.record [("op", .text "literal"), ("value", .bool true)])).excess = none := by
      decide +kernel
    have tree : Expression.read (.record [("op", .text "literal"), ("value", .bool true)]) =
        .ok (.literal (.bool true)) := by
      simp [Expression.read, Expression.within, Value.field, Entries.get?, Expression.readScalar]
      rfl
    rw [Expression.ofValue, small, tree]
    rfl
  have passed : certainRule.evaluations .empty =
      [{ code := "always", mandatory := true, status := .passed }] := by
    have holds : (Expression.literal (.bool true)).evaluate .empty = .ok (.value true) := by
      decide +kernel
    simp [RuleVersion.evaluations, certainRule, Requirement.evaluate, read, holds]
  rw [RuleVersion.evaluate, passed]
  decide +kernel

/-- An answer without context that states no confidence is trusted as the rules are. -/
theorem trusted_above_cap :
    ∃ c, c = CombinedVerdict.combine (certainRule.evaluate .empty {}).verdict
        (some (Reasoning.ofAnswer (.nearest (5 / 10)) [] ⟨[]⟩
          ⟨"OUTCOME: eligible", "mock-model", none⟩).verdict) {} ∧
      c.aiUsed = true ∧ c.confidence.le (.nearest (5 / 10)) = false ∧
      Number.lt (.nearest (5 / 10)) ({} : Thresholds).escalation = true ∧ c.escalate = false := by
  rw [verdict_certainRule]
  exact ⟨_, rfl, by decide +kernel⟩

end Check
end VisaEligibility
