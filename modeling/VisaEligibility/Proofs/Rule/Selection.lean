import Mathlib.Data.List.Pairwise
import VisaEligibility.Proofs.Calendar.Instants
import VisaEligibility.Proofs.Text.UnitOrder
import VisaEligibility.Rule.Lookup
/-!
Which of several rule versions is selected. Versions with valid times of creation are totally
ordered by time and id, so where no two have both in common the selected one does not depend on the
order in which they are listed.
-/
set_option autoImplicit false

namespace VisaEligibility.RuleVersion

def createdMillis (v : RuleVersion) : Int :=
  match v.createdAt with
  | .ofMillis ms => ms
  | .invalid => 0

/-- Older versions first, those created together by id. -/
def byAge : RuleVersion → RuleVersion → Ordering :=
  compareLex (compareOn createdMillis) fun v w => Text.unitOrder v.id w.id

instance : Std.TransCmp byAge := by
  have : Std.TransCmp fun v w : RuleVersion => Text.unitOrder v.id w.id :=
    Sorting.transCmp_of_key Text.unitOrder RuleVersion.id
  unfold byAge
  infer_instance

variable {v w : RuleVersion}

theorem isInForce_iff {asOf : Instant} : v.isInForce asOf = true ↔
    v.published = true ∧ asOf.lt v.effectiveFrom = false ∧
      ∀ time, v.effectiveTo = some time → asOf.le time = true := by
  unfold isInForce
  cases v.effectiveTo <;> simp [and_assoc]

theorem createdMillis_eq (v : RuleVersion) : v.createdMillis = v.createdAt.millis := rfl

theorem before_eq_byAge (hv : v.createdAt.isValid = true) (hw : w.createdAt.isValid = true) :
    v.before w = (byAge w v == .lt) := by
  unfold before byAge compareLex compareOn
  rw [Instant.order?_of_valid hw hv, createdMillis_eq, createdMillis_eq]
  cases compare w.createdAt.millis v.createdAt.millis <;> rfl

theorem eq_of_byAge (hv : v.createdAt.isValid = true) (hw : w.createdAt.isValid = true)
    (level : byAge v w = .eq) : v.id = w.id ∧ v.createdAt = w.createdAt := by
  unfold byAge compareLex at level
  obtain ⟨times, ids⟩ := Ordering.then_eq_eq.1 level
  refine ⟨Std.LawfulEqCmp.eq_of_compare ids, Instant.eq_of_millis hv hw ?_⟩
  exact (Std.LawfulEqCmp.eq_of_compare times : createdMillis v = createdMillis w)

section Dated

variable {vs : List RuleVersion}

theorem sort_eq_of_created (created : ∀ v ∈ vs, v.createdAt.isValid = true) :
    Sorting.sort before vs = Sorting.sort (fun v w => byAge w v == .lt) vs :=
  Sorting.sort_congr vs fun v hv w hw => before_eq_byAge (created v hv) (created w hw)

theorem newest_of_created (created : ∀ v ∈ vs, v.createdAt.isValid = true)
    (first : (Sorting.sort before vs).head? = some v) (hw : w ∈ vs) :
    (byAge v w).isGE = true := by
  have preorder : Sorting.IsPreorder fun v w => byAge w v == .lt :=
    Sorting.isPreorder_of_cmp fun v w => byAge w v
  have sorted := Sorting.sort_sorted preorder vs
  rw [← sort_eq_of_created created] at sorted
  obtain ⟨rest, listed⟩ := List.head?_eq_some_iff.1 first
  have hm : w ∈ Sorting.sort before vs := Sorting.mem_sort.2 hw
  rw [listed] at hm sorted
  rcases List.mem_cons.1 hm with rfl | hm
  · have level : byAge w w = .eq := Std.ReflCmp.compare_self
    rw [level]
    rfl
  · have later := List.rel_of_pairwise_cons sorted hm
    cases he : byAge v w with
    | lt => simp [he] at later
    | eq => rfl
    | gt => rfl

end Dated

theorem select_eq_none_iff {candidates : List RuleVersion} {asOf : Instant} :
    select candidates asOf = none ↔ ∀ v ∈ candidates, v.isInForce asOf = false := by
  have sorted := Sorting.sort_perm before (candidates.filter (·.isInForce asOf))
  rw [select, List.head?_eq_none_iff, ← List.perm_nil, sorted.congr_left, List.perm_nil,
    List.filter_eq_nil_iff]
  simp only [Bool.not_eq_true]

theorem select_of_choose {visaTypeId : String} {asOf : Instant} {candidates : List RuleVersion}
    (chosen : choose visaTypeId asOf candidates = .ok v) : select candidates asOf = some v := by
  unfold choose at chosen
  cases selected : select candidates asOf with
  | none =>
    rw [selected] at chosen
    cases chosen
  | some w =>
    simp only [selected] at chosen
    split at chosen
    · cases chosen
    · cases chosen
      rfl

/-- A version in force among candidates, of which none that is in force is newer if they were all
created at valid times. -/
structure IsNewest (candidates : List RuleVersion) (asOf : Instant) (v : RuleVersion) : Prop where
  listed : v ∈ candidates
  inForce : v.isInForce asOf = true
  newest : (∀ w ∈ candidates, w.isInForce asOf = true → w.createdAt.isValid = true) →
    ∀ w ∈ candidates, w.isInForce asOf = true → (byAge v w).isGE = true

theorem isNewest_of_choose {visaTypeId : String} {asOf : Instant} {candidates : List RuleVersion}
    (chosen : choose visaTypeId asOf candidates = .ok v) : IsNewest candidates asOf v := by
  have first : (Sorting.sort before (candidates.filter (·.isInForce asOf))).head? = some v :=
    select_of_choose chosen
  obtain ⟨listed, inForce⟩ := List.mem_filter.1 (Sorting.mem_sort.1 (List.mem_of_head? first))
  refine ⟨listed, inForce, fun created w hw current => ?_⟩
  refine newest_of_created (fun u hu => ?_) first (List.mem_filter.2 ⟨hw, current⟩)
  obtain ⟨hu, current'⟩ := List.mem_filter.1 hu
  exact created u hu current'

/-- Versions created at valid times, no two of the same id at the same time. -/
structure Distinguished (vs : List RuleVersion) : Prop where
  created : ∀ v ∈ vs, v.createdAt.isValid = true
  distinct : vs.Pairwise fun v w => v.id = w.id → v.createdAt ≠ w.createdAt

namespace Distinguished

variable {vs ws : List RuleVersion}

theorem sublist (hd : Distinguished vs) (hs : ws.Sublist vs) : Distinguished ws :=
  ⟨fun v hm => hd.created v (hs.subset hm), hd.distinct.sublist hs⟩

theorem eq_of_byAge (hd : Distinguished vs) (hv : v ∈ vs) (hw : w ∈ vs)
    (level : byAge v w = .eq) : v = w := by
  obtain ⟨ids, times⟩ := RuleVersion.eq_of_byAge (hd.created v hv) (hd.created w hw) level
  have symmetric : Std.Symm fun v w : RuleVersion => v.id = w.id → v.createdAt ≠ w.createdAt :=
    ⟨fun _ _ apart same times => apart same.symm times.symm⟩
  by_contra other
  exact hd.distinct.forall hv hw other ids times

theorem perm (hd : Distinguished vs) (hp : vs.Perm ws) : Distinguished ws :=
  ⟨fun v hm => hd.created v (hp.mem_iff.2 hm),
    (hp.pairwise_iff fun apart same times => apart same.symm times.symm).1 hd.distinct⟩

theorem head?_sort_eq (hd : Distinguished vs) (hp : vs.Perm ws) :
    (Sorting.sort before vs).head? = (Sorting.sort before ws).head? := by
  have sorted : (Sorting.sort before vs).Perm (Sorting.sort before ws) :=
    (Sorting.sort_perm before vs).trans (hp.trans (Sorting.sort_perm before ws).symm)
  cases first : (Sorting.sort before vs).head? with
  | none =>
    rw [List.head?_eq_none_iff] at first
    rw [first] at sorted
    rw [← sorted.nil_eq]
    rfl
  | some v =>
    cases first' : (Sorting.sort before ws).head? with
    | none =>
      rw [List.head?_eq_none_iff] at first'
      rw [first'] at sorted
      rw [sorted.eq_nil] at first
      cases first
    | some w =>
      have hv : v ∈ vs := Sorting.mem_sort.1 (List.mem_of_head? first)
      have hw : w ∈ vs := hp.mem_iff.2 (Sorting.mem_sort.1 (List.mem_of_head? first'))
      have newer := newest_of_created hd.created first hw
      have older := newest_of_created (hd.perm hp).created first' (hp.mem_iff.1 hv)
      have level : byAge v w = .eq := Std.OrientedCmp.isGE_antisymm newer older
      rw [hd.eq_of_byAge hv hw level]

/-- The selected version does not depend on the order of the candidates. -/
theorem select_eq (hd : Distinguished vs) (hp : vs.Perm ws) (asOf : Instant) :
    select vs asOf = select ws asOf :=
  (hd.sublist List.filter_sublist).head?_sort_eq (hp.filter (·.isInForce asOf))

theorem choose_eq (hd : Distinguished vs) (hp : vs.Perm ws) (visaTypeId : String) {asOf : Instant}
    (valid : asOf.isValid = true) : choose visaTypeId asOf vs = choose visaTypeId asOf ws := by
  unfold choose
  rw [hd.select_eq hp asOf, valid]
  simp

end Distinguished

end VisaEligibility.RuleVersion
