import VisaEligibility.Bench.Sample
import VisaEligibility.Proofs.Expression.Coincidence
import VisaEligibility.Rule.Evaluation
/-!
The facts that a rule version lacks. They are what its requirements refer to and the case has not,
each once, in order of first appearance; more facts settle more requirements and leave the settled
ones as they are.
-/
set_option autoImplicit false

namespace VisaEligibility

namespace RequirementEvaluation

theorem isEvaluable_of_isPassed {e : RequirementEvaluation} (h : e.isPassed = true) :
    e.isEvaluable = true := by
  simp_all [isPassed, isEvaluable]

end RequirementEvaluation

namespace RuleEvaluation

variable (v : RuleVersion) (t : Thresholds) (es : List RequirementEvaluation)

theorem passed_ofEvaluations : (ofEvaluations v t es).passed = es.countP (·.isPassed) := by
  simp only [ofEvaluations, List.filter_filter, List.countP_eq_length_filter]
  congr 1
  refine List.filter_congr fun e _ => ?_
  cases he : e.isPassed with
  | false => rfl
  | true => exact RequirementEvaluation.isEvaluable_of_isPassed he

theorem total_ofEvaluations : (ofEvaluations v t es).total = es.countP (·.isEvaluable) :=
  List.countP_eq_length_filter.symm

end RuleEvaluation

namespace Requirement

variable {q : Requirement} {f g : Facts}

/-- The fact names that the expression of a requirement refers to, in order, repetitions kept. One
that cannot be read refers to nothing. -/
def references (q : Requirement) : List String :=
  match Expression.ofValue q.expression with
  | .ok e => e.names
  | .error _ => []

theorem evaluate_congr (h : Facts.AgreeOn q.references f g) : q.evaluate f = q.evaluate g := by
  unfold references at h
  unfold evaluate
  cases hq : Expression.ofValue q.expression with
  | error r => rfl
  | ok e =>
    rw [hq] at h
    dsimp only
    rw [Expression.evaluate_congr h]

theorem missing_and_status_evaluate (q : Requirement) (f : Facts) :
    (q.evaluate f).missing = (distinct q.references).filter (fun n => !f.has n) ∧
      ((q.evaluate f).status = .indeterminate ↔ (q.evaluate f).missing ≠ []) := by
  unfold evaluate references
  cases hq : Expression.ofValue q.expression with
  | error r => simp
  | ok e =>
    dsimp only
    have lacking : (distinct e.names).filter (fun n => !f.has n) = e.missingFacts f := rfl
    rw [lacking]
    by_cases complete : e.missingFacts f = []
    · rw [Expression.evaluate_of_complete complete, complete]
      cases e.holds f with
      | error r => simp [Except.map]
      | ok b => cases b <;> simp [Except.map]
    · rw [Expression.evaluate_of_missing complete]
      simpa using complete

theorem missing_evaluate (q : Requirement) (f : Facts) :
    (q.evaluate f).missing = (distinct q.references).filter fun n => !f.has n :=
  (missing_and_status_evaluate q f).1

theorem indeterminate_iff :
    (q.evaluate f).status = .indeterminate ↔ ∃ n ∈ q.references, f.has n = false := by
  rw [(missing_and_status_evaluate q f).2, missing_evaluate, Ne, List.filter_eq_nil_iff]
  simp

theorem has_of_decided (h : (q.evaluate f).status ≠ .indeterminate) {n : String}
    (hn : n ∈ q.references) : f.has n = true := by
  cases hf : f.has n with
  | true => rfl
  | false => exact absurd (indeterminate_iff.2 ⟨n, hn, hf⟩) h

/-- A requirement that is decided stays as it is when facts are added. -/
theorem evaluate_of_includes (h : g.Includes f) (decided : (q.evaluate f).status ≠ .indeterminate) :
    q.evaluate g = q.evaluate f :=
  evaluate_congr (h.agreeOn fun _ hn => has_of_decided decided hn)

end Requirement

namespace RuleVersion

variable {v : RuleVersion} {f g : Facts} {n : String}

def references (v : RuleVersion) : List String := v.requirements.flatMap (·.references)

theorem agreeOn_references {q : Requirement} (hq : q ∈ v.requirements)
    (h : Facts.AgreeOn v.references f g) : Facts.AgreeOn q.references f g :=
  h.mono fun _ hn => List.mem_flatMap.2 ⟨q, hq, hn⟩

theorem missingFacts_evaluate (v : RuleVersion) (f : Facts) (t : Thresholds) :
    (v.evaluate f t).missingFacts = (distinct v.references).filter fun n => !f.has n := by
  have all : ((v.evaluations f).filter (!·.isEvaluable)).flatMap (·.missing) =
      v.requirements.flatMap fun q => (distinct q.references).filter fun n => !f.has n := by
    unfold evaluations
    induction v.requirements with
    | nil => rfl
    | cons q qs ih =>
      rw [List.map_cons, List.flatMap_cons, ← ih, ← Requirement.missing_evaluate]
      cases hq : (q.evaluate f).isEvaluable with
      | false => rw [List.filter_cons_of_pos (by simp [hq]), List.flatMap_cons]
      | true =>
        have nothing : (q.evaluate f).missing = [] := by
          by_contra some
          have := (Requirement.missing_and_status_evaluate q f).2.2 some
          simp [RequirementEvaluation.isEvaluable, this] at hq
        rw [List.filter_cons_of_neg (by simp [hq]), nothing, List.nil_append]
  change distinct (((v.evaluations f).filter (!·.isEvaluable)).flatMap (·.missing)) = _
  rw [all]
  simp only [← distinct_filter]
  rw [distinct_flatMap_distinct, ← List.filter_flatMap]
  rfl

theorem mem_missingFacts {t : Thresholds} :
    n ∈ (v.evaluate f t).missingFacts ↔ n ∈ v.references ∧ f.has n = false := by
  simp [missingFacts_evaluate]

theorem evaluate_congr (h : Facts.AgreeOn v.references f g) (t : Thresholds) :
    v.evaluate f t = v.evaluate g t := by
  have same : v.evaluations f = v.evaluations g :=
    List.map_congr_left fun q hq => Requirement.evaluate_congr (agreeOn_references hq h)
  rw [evaluate, evaluate, same]

theorem count_mono {p : RequirementEvaluation → Bool} (h : g.Includes f)
    (decided : ∀ e, p e = true → e.isEvaluable = true) :
    (v.evaluations f).countP p ≤ (v.evaluations g).countP p := by
  unfold evaluations
  rw [List.countP_map, List.countP_map]
  refine List.countP_mono_left fun q _ hq => ?_
  have settled : (q.evaluate f).status ≠ .indeterminate := by
    simpa [RequirementEvaluation.isEvaluable] using decided _ hq
  simpa [Requirement.evaluate_of_includes h settled] using hq

/-- Facts that are added to a case change nothing that was decided without them. Every requirement
that passed, failed or was in error keeps its evaluation, the counts do not fall, and of the missing
facts exactly those that were added go. What a version makes of a case is a matter of the facts that
its requirements refer to. -/
theorem decisions_survive_more_facts (v : RuleVersion) (h : g.Includes f) (t : Thresholds) :
    (∀ (i : Nat) (e : RequirementEvaluation), (v.evaluate f t).evaluations[i]? = some e →
      e.status ≠ .indeterminate →
      (v.evaluate g t).evaluations[i]? = some e) ∧
    (v.evaluate f t).passed ≤ (v.evaluate g t).passed ∧
    (v.evaluate f t).total ≤ (v.evaluate g t).total ∧
    (v.evaluate g t).missingFacts = (v.evaluate f t).missingFacts.filter (fun n => !g.has n) ∧
    ∀ k, Facts.AgreeOn v.references k f → v.evaluate k t = v.evaluate f t := by
  refine ⟨?_, ?_, ?_, ?_, fun k hk => evaluate_congr hk t⟩
  · intro i e hi decided
    change (v.requirements.map (·.evaluate f))[i]? = some e at hi
    change (v.requirements.map (·.evaluate g))[i]? = some e
    rw [List.getElem?_map, Option.map_eq_some_iff] at hi ⊢
    obtain ⟨q, hq, rfl⟩ := hi
    exact ⟨q, hq, Requirement.evaluate_of_includes h decided⟩
  · rw [evaluate, evaluate, RuleEvaluation.passed_ofEvaluations,
      RuleEvaluation.passed_ofEvaluations]
    exact count_mono h fun e => RequirementEvaluation.isEvaluable_of_isPassed
  · rw [evaluate, evaluate, RuleEvaluation.total_ofEvaluations, RuleEvaluation.total_ofEvaluations]
    exact count_mono h fun e he => he
  · rw [missingFacts_evaluate, missingFacts_evaluate, List.filter_filter]
    refine List.filter_congr fun n _ => ?_
    cases hg : g.has n with
    | true => rfl
    | false => simp [h.absent hg]

end RuleVersion

namespace Bench.Sample

theorem read_salary : Expression.ofValue salary.expression =
    .ok (.compare .ge (.var "salary" (some .number)) (.literal (.number 38700))) := by
  have small : (Expression.Measure.ofValue salary.expression).excess = none := by decide +kernel
  have operator : Comparison.ofName? ">=" = some .ge := by decide
  have type : ScalarKind.ofName? "number" = some .number := by decide
  have bound : Expression.readScalar (.number 38700) = .ok (.number 38700) := rfl
  have tree : Expression.read salary.expression =
      .ok (.compare .ge (.var "salary" (some .number)) (.literal (.number 38700))) := by
    simp [salary, Expression.read, Expression.within, Value.field, Entries.get?,
      Expression.readName, Expression.readType, Expression.readChoice, operator, type, bound,
      Except.mapError, Except.map, bind, Except.bind]
  rw [Expression.ofValue, small, tree]
  rfl

theorem read_degree : Expression.ofValue degree.expression = .ok (.var "has_degree" none) := by
  have small : (Expression.Measure.ofValue degree.expression).excess = none := by decide +kernel
  have tree : Expression.read degree.expression = .ok (.var "has_degree" none) := by
    simp [degree, flag, variableTree, Expression.read, Expression.within, Value.field, Entries.get?,
      Expression.readName, Expression.readType, Except.mapError, bind, Except.bind]
  rw [Expression.ofValue, small, tree]
  rfl

theorem references_ruleVersion : ruleVersion.references = ["salary", "has_degree"] := by
  simp [RuleVersion.references, ruleVersion, Requirement.references, read_salary, read_degree,
    Expression.names]

def salaried : Facts := ⟨[("salary", some (.number 45000))]⟩

theorem missingFacts_salaried : (ruleVersion.evaluate salaried).missingFacts = ["has_degree"] := by
  rw [RuleVersion.missingFacts_evaluate, references_ruleVersion]
  decide +kernel

def degreeDenied : Facts := salaried.put "has_degree" (some (.bool false))

theorem degreeDenied_includes : degreeDenied.Includes salaried :=
  Facts.put_includes (by decide +kernel) _

end Bench.Sample

namespace RuleVersion

open Bench.Sample

/-- The salary is enough before and after a degree is denied. -/
theorem decisions_survive_more_facts_degree :
    degreeDenied.Includes salaried ∧
    (ruleVersion.evaluate salaried).evaluations[0]? =
      some ⟨"salary_threshold", true, .passed, [], none⟩ ∧
    (ruleVersion.evaluate degreeDenied).evaluations[0]? =
      some ⟨"salary_threshold", true, .passed, [], none⟩ ∧
    (ruleVersion.evaluate salaried).passed ≤ (ruleVersion.evaluate degreeDenied).passed ∧
    (ruleVersion.evaluate salaried).total ≤ (ruleVersion.evaluate degreeDenied).total ∧
    (ruleVersion.evaluate degreeDenied).missingFacts = [] := by
  have decided : (ruleVersion.evaluate salaried).evaluations[0]? =
      some ⟨"salary_threshold", true, .passed, [], none⟩ := by
    change some (salary.evaluate salaried) = _
    rw [Requirement.evaluate, read_salary]
    decide +kernel
  obtain ⟨kept, passed, total, missing, -⟩ :=
    decisions_survive_more_facts ruleVersion degreeDenied_includes {}
  refine ⟨degreeDenied_includes, decided, kept 0 _ decided (by decide), passed, total, ?_⟩
  rw [missing, missingFacts_salaried]
  decide +kernel

/-- The missing facts are complete and minimal. They are the facts that the requirements refer to and
the case lacks, each once, in order of first appearance. A case that has them as well leaves no
requirement open, and one that lacks any of them leaves one open. -/
theorem missingFacts_complete_and_minimal (v : RuleVersion) (f : Facts) (t : Thresholds) :
    (v.evaluate f t).missingFacts.Nodup ∧
    (∀ n, n ∈ (v.evaluate f t).missingFacts ↔ n ∈ v.references ∧ f.has n = false) ∧
    (v.evaluate f t).missingFacts.Pairwise
      (fun m n => v.references.idxOf m < v.references.idxOf n) ∧
    ∀ g : Facts, g.Includes f →
      ((∀ n ∈ (v.evaluate f t).missingFacts, g.has n = true) →
        (∀ e ∈ (v.evaluate g t).evaluations, e.status ≠ .indeterminate) ∧
        (v.evaluate g t).total = v.requirements.length ∧
        (v.evaluate g t).mandatoryMissing = []) ∧
      ∀ n ∈ (v.evaluate f t).missingFacts, g.has n = false →
        ∃ e ∈ (v.evaluate g t).evaluations, e.status = .indeterminate := by
  refine ⟨?_, fun n => mem_missingFacts, ?_, fun g h => ⟨fun present => ?_, ?_⟩⟩
  · rw [missingFacts_evaluate]
    exact (nodup_distinct _).filter _
  · rw [missingFacts_evaluate]
    exact (pairwise_distinct _).filter _
  · have settled : ∀ e ∈ v.evaluations g, e.status ≠ .indeterminate := by
      intro e he open_
      obtain ⟨q, hq, rfl⟩ := List.mem_map.1 he
      obtain ⟨n, hn, absent⟩ := Requirement.indeterminate_iff.1 open_
      have referred : n ∈ v.references := List.mem_flatMap.2 ⟨q, hq, hn⟩
      have := present n (mem_missingFacts.2 ⟨referred, h.absent absent⟩)
      simp [absent] at this
    have evaluable : ∀ e ∈ v.evaluations g, e.isEvaluable = true := fun e he => by
      simpa [RequirementEvaluation.isEvaluable] using settled e he
    have none : (v.evaluations g).filter (!·.isEvaluable) = [] :=
      List.filter_eq_nil_iff.2 fun e he => by simp [evaluable e he]
    refine ⟨settled, ?_, ?_⟩
    · rw [evaluate, RuleEvaluation.total_ofEvaluations, List.countP_eq_length.2 evaluable]
      exact List.length_map ..
    · simp [evaluate, RuleEvaluation.ofEvaluations, none]
  · intro n hn absent
    obtain ⟨q, hq, referred⟩ := List.mem_flatMap.1 (mem_missingFacts.1 hn).1
    exact ⟨q.evaluate g, List.mem_map.2 ⟨q, hq, rfl⟩,
      Requirement.indeterminate_iff.2 ⟨n, referred, absent⟩⟩

/-- The degree is what the salaried case lacks: without it a requirement is open, with it none. -/
theorem missingFacts_complete_and_minimal_degree :
    degreeDenied.Includes salaried ∧
    (ruleVersion.evaluate degreeDenied).total = 2 ∧
    (ruleVersion.evaluate degreeDenied).mandatoryMissing = [] ∧
    "has_degree" ∈ (ruleVersion.evaluate salaried).missingFacts ∧
    ∃ e ∈ (ruleVersion.evaluate salaried).evaluations, e.status = .indeterminate := by
  have lacked : "has_degree" ∈ (ruleVersion.evaluate salaried).missingFacts := by
    rw [missingFacts_salaried]
    exact List.mem_singleton_self _
  obtain ⟨-, -, -, extended⟩ := missingFacts_complete_and_minimal ruleVersion salaried {}
  obtain ⟨-, total, mandatory⟩ := (extended degreeDenied degreeDenied_includes).1 (by
    rw [missingFacts_salaried]
    decide +kernel)
  exact ⟨degreeDenied_includes, total, mandatory, lacked,
    (extended salaried fun _ has => ⟨has, rfl⟩).2 "has_degree" lacked (by decide +kernel)⟩

end RuleVersion
end VisaEligibility
