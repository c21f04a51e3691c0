import Mathlib.Data.List.Nodup
import VisaEligibility.Bench.Basic
import VisaEligibility.Proofs.Calendar.Instants
/-!
The results of a case in memory: all that were stored for it, the newest first. Of results created
at different times there is only one such list.
-/
set_option autoImplicit false

namespace VisaEligibility

/-- Results none of which is older than a later one. -/
def NewestFirst (rs : List EligibilityResult) : Prop :=
  rs.Pairwise fun r s => r.createdAt.lt s.createdAt = false

theorem NewestFirst.times {rs : List EligibilityResult} (h : NewestFirst rs) :
    (rs.map (·.createdAt)).Pairwise fun s t => s.lt t = false := List.pairwise_map.2 h

theorem NewestFirst.times_eq {rs ss : List EligibilityResult} (hr : NewestFirst rs)
    (hs : NewestFirst ss) (hp : rs.Perm ss) (valid : ∀ r ∈ ss, r.createdAt.isValid = true) :
    rs.map (·.createdAt) = ss.map (·.createdAt) := by
  refine (hp.map _).eq_of_pairwise (fun a b ha hb hab hba => ?_) hr.times hs.times
  obtain ⟨r, hm, rfl⟩ := List.mem_map.1 ha
  obtain ⟨s, hm', rfl⟩ := List.mem_map.1 hb
  exact Instant.eq_of_not_lt (valid r (hp.mem_iff.1 hm)) (valid s hm') hab hba

theorem NewestFirst.eq_of_distinct {rs ss : List EligibilityResult} (hr : NewestFirst rs)
    (hs : NewestFirst ss) (hp : rs.Perm ss) (valid : ∀ r ∈ ss, r.createdAt.isValid = true)
    (apart : (ss.map (·.createdAt)).Nodup) : rs = ss := by
  refine hp.eq_of_pairwise (fun r s hm hm' hab hba => ?_) hr hs
  have hm := hp.mem_iff.1 hm
  have together := Instant.eq_of_not_lt (valid r hm) (valid s hm') hab hba
  exact List.inj_on_of_nodup_map apart hm hm' together

namespace Bench

def saving (b : Bench) (rs : List EligibilityResult) : Bench :=
  rs.foldl (fun b r => (reply (.saveResult r) b).2) b

theorem results_saving (b : Bench) (sound : b.faults = []) (rs : List EligibilityResult) :
    (b.saving rs).stores.results = b.stores.results ++ rs := by
  induction rs generalizing b with
  | nil => simp [saving]
  | cons r rs ih =>
    have stored : (reply (.saveResult r) b).2.stores.results = b.stores.results ++ [r] := by
      simp [reply, write, Stores.write, Faults.of, sound]
    have kept : (reply (.saveResult r) b).2.faults = [] := sound
    have rest := ih (reply (.saveResult r) b).2 kept
    rw [stored, List.append_assoc] at rest
    exact rest

namespace Stores

variable {s : Stores} {caseId : String}

theorem resultsOf_perm (caseId : String) (s : Stores) :
    (s.resultsOf caseId).Perm (s.results.filter fun r => r.caseId == caseId) :=
  Sorting.sort_perm _ _

theorem newestFirst_resultsOf (valid : ∀ r ∈ s.results, r.createdAt.isValid = true) :
    NewestFirst (s.resultsOf caseId) := by
  have found : ∀ r ∈ s.results.filter fun r => r.caseId == caseId, r.createdAt.isValid = true :=
    fun r hr => valid r (List.mem_filter.1 hr).1
  have agree : s.resultsOf caseId = Sorting.sort
      (fun a b => compare b.createdAt.millis a.createdAt.millis == .lt)
      (s.results.filter fun r => r.caseId == caseId) :=
    Sorting.sort_congr _ fun a ha b hb => Instant.lt_of_valid (found b hb) (found a ha)
  have opposite : Std.TransCmp fun a b : EligibilityResult =>
      compareOn (fun r => r.createdAt.millis) b a := Std.TransCmp.opposite
  have sorted := Sorting.sort_sorted (Sorting.isPreorder_of_cmp fun a b : EligibilityResult =>
    compareOn (fun r => r.createdAt.millis) b a) (s.results.filter fun r => r.caseId == caseId)
  rw [NewestFirst, agree]
  refine sorted.imp_of_mem fun {a b} ha hb later => ?_
  rw [Instant.lt_of_valid (found a (Sorting.mem_sort.1 ha)) (found b (Sorting.mem_sort.1 hb))]
  exact later

end Stores
end Bench

end VisaEligibility
