import VisaEligibility.Bench.Sample
import VisaEligibility.Proofs.Rule.Selection
/-!
The selected rule version is a maximum. Among versions with valid dates and ids of their own the
active ones are strictly ordered by the time of creation and the id, and the selected one is the
greatest of them. A version that is inactive or superseded by it makes no difference.
-/
set_option autoImplicit false

namespace VisaEligibility

namespace RuleVersion

/-- A published version whose term holds a time, bounds included. -/
structure Active (v : RuleVersion) (asOf : Instant) : Prop where
  published : v.published = true
  started : v.effectiveFrom.millis ≤ asOf.millis
  lasting : ∀ time, v.effectiveTo = some time → asOf.millis ≤ time.millis

structure HasDates (v : RuleVersion) : Prop where
  start : v.effectiveFrom.isValid = true
  ending : ∀ time, v.effectiveTo = some time → time.isValid = true
  created : v.createdAt.isValid = true

/-- Created later, or at the same time under an id that is greater by its code units. -/
def Supersedes (v w : RuleVersion) : Prop :=
  w.createdAt.millis < v.createdAt.millis ∨
    w.createdAt.millis = v.createdAt.millis ∧ Text.codeUnits w.id < Text.codeUnits v.id

structure Candidates (vs : List RuleVersion) : Prop where
  dated : ∀ v ∈ vs, v.HasDates
  ids : (vs.map (·.id)).Nodup

/-- An active one of several versions that supersedes all other active ones. -/
structure IsGreatest (vs : List RuleVersion) (asOf : Instant) (v : RuleVersion) : Prop where
  listed : v ∈ vs
  active : v.Active asOf
  supersedes : ∀ w ∈ vs, w.Active asOf → w ≠ v → v.Supersedes w

/-- A version that is inactive or that the selected one supersedes. -/
def Outranked (vs : List RuleVersion) (asOf : Instant) (w : RuleVersion) : Prop :=
  ¬w.Active asOf ∨ ∃ v, select vs asOf = some v ∧ v.Supersedes w

variable {v w : RuleVersion} {asOf : Instant} {vs ws : List RuleVersion}

theorem HasDates.isInForce_iff (hd : v.HasDates) (valid : asOf.isValid = true) :
    v.isInForce asOf = true ↔ v.Active asOf := by
  have started : asOf.lt v.effectiveFrom = false ↔ v.effectiveFrom.millis ≤ asOf.millis := by
    rw [← Bool.not_eq_true, Instant.lt_iff_of_valid valid hd.start, Int.not_lt]
  have lasting (time : Instant) (ends : v.effectiveTo = some time) :
      asOf.le time = true ↔ asOf.millis ≤ time.millis :=
    Instant.le_iff_of_valid valid (hd.ending time ends)
  rw [RuleVersion.isInForce_iff, started]
  constructor
  · rintro ⟨published, begun, current⟩
    exact ⟨published, begun, fun time ends => (lasting time ends).1 (current time ends)⟩
  · rintro ⟨published, begun, current⟩
    exact ⟨published, begun, fun time ends => (lasting time ends).2 (current time ends)⟩

theorem supersedes_iff : v.Supersedes w ↔ byAge v w = .gt := by
  unfold byAge compareLex compareOn
  rw [Ordering.then_eq_gt, Int.compare_eq_gt, Int.compare_eq_eq, Std.OrientedCmp.gt_iff_lt,
    Text.unitOrder_eq_lt_iff, createdMillis_eq, createdMillis_eq, eq_comm]
  rfl

theorem Supersedes.irrefl (v : RuleVersion) : ¬v.Supersedes v := by
  rw [supersedes_iff, (Std.ReflCmp.compare_self : byAge v v = .eq)]
  nofun

theorem Supersedes.asymm (h : v.Supersedes w) : ¬w.Supersedes v := by
  rw [supersedes_iff] at h ⊢
  rw [Std.OrientedCmp.gt_iff_lt.1 h]
  nofun

theorem Outranked.superseded (h : Outranked vs asOf w) (active : w.Active asOf) :
    ∃ v, select vs asOf = some v ∧ v.Supersedes w :=
  h.resolve_left (not_not_intro active)

namespace Candidates

theorem distinguished (hc : Candidates vs) : Distinguished vs where
  created v hv := (hc.dated v hv).created
  distinct := (List.pairwise_map.1 hc.ids).imp fun apart same => absurd same apart

theorem supersedes_total (hc : Candidates vs) (hv : v ∈ vs) (hw : w ∈ vs) (other : w ≠ v) :
    v.Supersedes w ∨ w.Supersedes v := by
  rw [supersedes_iff, supersedes_iff]
  cases level : byAge v w with
  | lt => exact .inr (Std.OrientedCmp.gt_iff_lt.2 level)
  | eq => exact absurd (hc.distinguished.eq_of_byAge hv hw level).symm other
  | gt => exact .inl rfl

theorem isInForce_iff (hc : Candidates vs) (valid : asOf.isValid = true) (hv : v ∈ vs) :
    v.isInForce asOf = true ↔ v.Active asOf :=
  (hc.dated v hv).isInForce_iff valid

theorem select_eq_none_iff (hc : Candidates vs) (valid : asOf.isValid = true) :
    select vs asOf = none ↔ ∀ v ∈ vs, ¬v.Active asOf := by
  rw [RuleVersion.select_eq_none_iff]
  refine forall₂_congr fun v hv => ?_
  rw [← Bool.not_eq_true, hc.isInForce_iff valid hv]

theorem isGreatest_of_select (hc : Candidates vs) (valid : asOf.isValid = true)
    (selected : select vs asOf = some v) : IsGreatest vs asOf v := by
  obtain ⟨listed, inForce⟩ :=
    List.mem_filter.1 (Sorting.mem_sort.1 (List.mem_of_head? selected))
  refine ⟨listed, (hc.isInForce_iff valid listed).1 inForce, fun w hw active other => ?_⟩
  have current := hc.distinguished.sublist (List.filter_sublist (p := (·.isInForce asOf)))
  have older : (byAge v w).isGE = true := newest_of_created current.created selected
    (List.mem_filter.2 ⟨hw, (hc.isInForce_iff valid hw).2 active⟩)
  refine (hc.supersedes_total listed hw other).resolve_right fun newer => ?_
  rw [supersedes_iff, Std.OrientedCmp.gt_iff_lt] at newer
  simp [newer] at older

theorem select_eq_some_iff (hc : Candidates vs) (valid : asOf.isValid = true) :
    select vs asOf = some v ↔ IsGreatest vs asOf v := by
  refine ⟨hc.isGreatest_of_select valid, fun greatest => ?_⟩
  cases selected : select vs asOf with
  | none =>
    have inactive := (hc.select_eq_none_iff valid).1 selected v greatest.listed
    exact absurd greatest.active inactive
  | some w =>
    have greatest' := hc.isGreatest_of_select valid selected
    by_contra other
    have apart : w ≠ v := fun same => other (congrArg some same)
    have above := greatest.supersedes w greatest'.listed greatest'.active apart
    exact above.asymm (greatest'.supersedes v greatest.listed greatest.active apart.symm)

theorem select_eq_of_outranked (hc : Candidates vs) (hc' : Candidates ws)
    (valid : asOf.isValid = true) (same : ∀ w, (w ∈ vs ↔ w ∈ ws) ∨ Outranked vs asOf w) :
    select ws asOf = select vs asOf := by
  cases selected : select vs asOf with
  | none =>
    have inactive := (hc.select_eq_none_iff valid).1 selected
    rw [hc'.select_eq_none_iff valid]
    intro w hw active
    obtain shared | outranked := same w
    · exact inactive w (shared.2 hw) active
    · obtain ⟨v, chosen, -⟩ := outranked.superseded active
      rw [selected] at chosen
      cases chosen
  | some v =>
    have greatest := hc.isGreatest_of_select valid selected
    have above {w : RuleVersion} (outranked : Outranked vs asOf w) (active : w.Active asOf) :
        v.Supersedes w := by
      obtain ⟨u, chosen, above⟩ := outranked.superseded active
      rw [selected] at chosen
      cases chosen
      exact above
    rw [hc'.select_eq_some_iff valid]
    refine ⟨?_, greatest.active, fun w hw active other => ?_⟩
    · obtain shared | outranked := same v
      · exact shared.1 greatest.listed
      · exact absurd (above outranked greatest.active) (Supersedes.irrefl v)
    · obtain shared | outranked := same w
      · exact greatest.supersedes w (shared.2 hw) active other
      · exact above outranked active

end Candidates

/-- None of the candidates is selected exactly if none is active, and one exactly if it is the
greatest of the active ones. Neither their order nor the outranked ones make a difference. -/
theorem selection_is_maximum (hc : Candidates vs) (valid : asOf.isValid = true) :
    (select vs asOf = none ↔ ∀ v ∈ vs, ¬v.Active asOf) ∧
    (∀ v, select vs asOf = some v ↔ IsGreatest vs asOf v) ∧
    (∀ ws, vs.Perm ws → select ws asOf = select vs asOf) ∧
    ∀ ws, Candidates ws → (∀ w, (w ∈ vs ↔ w ∈ ws) ∨ Outranked vs asOf w) →
      select ws asOf = select vs asOf :=
  ⟨hc.select_eq_none_iff valid, fun _ => hc.select_eq_some_iff valid,
    fun _ order => (hc.distinguished.select_eq order asOf).symm,
    fun _ hc' => hc.select_eq_of_outranked hc' valid⟩

end RuleVersion

namespace Bench.Sample

def issued (id : String) (published : Bool := true) : RuleVersion :=
  { ruleVersion with id, published, effectiveFrom := .ofMillis 0, createdAt := .ofMillis 0 }

theorem hasDates_issued (id : String) (published : Bool) : (issued id published).HasDates where
  start := rfl
  ending := nofun
  created := rfl

theorem active_issued (id : String) : (issued id).Active (.ofMillis 5) where
  published := rfl
  started := (by decide : (0 : Int) ≤ 5)
  lasting := nofun

theorem inactive_issued (id : String) : ¬(issued id false).Active (.ofMillis 5) :=
  fun active => nomatch active.published

end Bench.Sample

namespace RuleVersion

open Bench.Sample

/-- Of two versions created together the one with the greater id is selected, also where the other
one is gone and there is a draft, and of drafts none is. -/
theorem selection_is_maximum_tied :
    select [issued "rv-a", issued "rv-b"] (.ofMillis 5) = some (issued "rv-b") ∧
    select [issued "rv-c" false, issued "rv-b"] (.ofMillis 5) = some (issued "rv-b") ∧
    select [issued "rv-c" false] (.ofMillis 5) = none := by
  have tied : Candidates [issued "rv-a", issued "rv-b"] :=
    ⟨by simp [hasDates_issued], by simp [issued]⟩
  have changed : Candidates [issued "rv-c" false, issued "rv-b"] :=
    ⟨by simp [hasDates_issued], by simp [issued]⟩
  have draft : Candidates [issued "rv-c" false] :=
    ⟨by simp [hasDates_issued], by simp⟩
  have later : (issued "rv-b").Supersedes (issued "rv-a") := .inr ⟨rfl, by decide⟩
  have valid : (Instant.ofMillis 5).isValid = true := rfl
  obtain ⟨-, greatest, -, stays⟩ := selection_is_maximum tied valid
  have selected := (greatest (issued "rv-b")).2
    { listed := by simp
      active := active_issued "rv-b"
      supersedes := by
        intro w hw _ other
        obtain rfl | rfl : w = issued "rv-a" ∨ w = issued "rv-b" := by simpa using hw
        · exact later
        · exact absurd rfl other }
  refine ⟨selected, (stays _ changed fun w => ?_).trans selected, ?_⟩
  · by_cases older : w = issued "rv-a"
    · exact .inr (.inr ⟨_, selected, older ▸ later⟩)
    · by_cases added : w = issued "rv-c" false
      · exact .inr (.inl (added ▸ inactive_issued "rv-c"))
      · simp [older, added]
  · refine (selection_is_maximum draft valid).1.2 fun v hv => ?_
    rw [List.mem_singleton.1 hv]
    exact inactive_issued "rv-c"

end RuleVersion
end VisaEligibility
