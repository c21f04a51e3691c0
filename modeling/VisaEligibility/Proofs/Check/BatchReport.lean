import Mathlib.Data.List.Forall2
import VisaEligibility.Check.Batch
import VisaEligibility.Proofs.Number.Counting
/-!
The report of a batch. Each position of the batch has one entry, a report or a failure, and both
lists are in the order of the positions; the summary counts the entries.
-/
set_option autoImplicit false

namespace VisaEligibility

theorem filterMap_placed {α β : Type} (f : α → Option β) (l : List α) :
    List.Forall₂ (fun n b => l[n]?.bind f = some b)
      ((List.range l.length).filter fun n => (l[n]?.bind f).isSome) (l.filterMap f) := by
  have placed : l.filterMap f = (List.range l.length).filterMap fun n => l[n]?.bind f := by
    have entries : l.map some = (List.range l.length).map fun n => l[n]? := by
      refine List.ext_getElem (by simp) fun n hn hn' => by simp
    have mapped := congrArg (List.filterMap fun x => x.bind f) entries
    rw [List.filterMap_map, List.filterMap_map] at mapped
    exact mapped
  rw [placed]
  induction List.range l.length with
  | nil => exact .nil
  | cons n ns ih =>
    cases hn : l[n]?.bind f with
    | none => simpa [hn] using ih
    | some b => simpa [hn] using ih

/-- Two filters of which each entry passes one give each position one entry, in order. -/
theorem filterMap_split {α β γ : Type} {f : α → Option β} {g : α → Option γ}
    (one : ∀ a, (g a).isSome = !(f a).isSome) (l : List α) :
    ∃ ps qs : List Nat, ps.Pairwise (· < ·) ∧ qs.Pairwise (· < ·) ∧
      (ps ++ qs).Perm (List.range l.length) ∧
      List.Forall₂ (fun n b => l[n]?.bind f = some b) ps (l.filterMap f) ∧
      List.Forall₂ (fun n c => l[n]?.bind g = some c) qs (l.filterMap g) := by
  refine ⟨_, _, List.pairwise_lt_range.filter _, List.pairwise_lt_range.filter _, ?_,
    filterMap_placed f l, filterMap_placed g l⟩
  have others : ((List.range l.length).filter fun n => (l[n]?.bind g).isSome) =
      (List.range l.length).filter fun n => !(l[n]?.bind f).isSome := by
    refine List.filter_congr fun n hn => ?_
    have bound := List.mem_range.1 hn
    have entry : l[n]? = some l[n] := List.getElem?_eq_getElem bound
    simp [entry, one]
  rw [others]
  exact List.filter_append_perm _ _

namespace Batch

variable {caseId : String} {outcomes : List (String × Except Raised CheckReport)}

def conclusions (reports : List CheckReport) : List Conclusion :=
  reports.map fun y => y.result.conclusion

def isReserved : Conclusion → Bool
  | .outcome _ => false
  | .reserved _ => true

theorem eq_of_display {o : Outcome} {c : Conclusion} (hd : c.display = o.name) :
    c = .outcome o := by
  have named := congrArg Outcome.ofName? hd
  rw [Outcome.ofName?_name] at named
  cases c with
  | outcome o' => exact congrArg _ (Option.some.inj ((Outcome.ofName?_name o').symm.trans named))
  | reserved l =>
    have none : Outcome.ofName? (Conclusion.reserved l).display = none := by
      cases l <;> decide +kernel
    cases none.symm.trans named

theorem get?_countConclusion {counts : List (String × Number)} {o : Outcome} {n : Nat}
    (hn : Entries.get? counts o.name = some (.counted n)) (c : Conclusion) :
    Entries.get? (countConclusion counts c) o.name =
      some (.counted (n + if c = .outcome o then 1 else 0)) := by
  unfold countConclusion
  by_cases hd : c.display = o.name
  · obtain rfl := eq_of_display hd
    have found : Entries.get? counts (Conclusion.outcome o).display = some (.counted n) := hn
    rw [if_pos rfl, found, ← Number.counted_add_one]
    exact Entries.get?_put_self ..
  · have other : c ≠ .outcome o := by
      rintro rfl
      exact hd rfl
    rw [Entries.get?_put_of_ne _ _ (Ne.symm hd), if_neg other]
    exact hn

theorem get?_outcomeCounts (reports : List CheckReport) (o : Outcome) :
    Entries.get? (outcomeCounts reports) o.name =
      some (.counted ((conclusions reports).count (.outcome o))) := by
  have counting (cs : List Conclusion) (counts : List (String × Number)) (n : Nat)
      (hn : Entries.get? counts o.name = some (.counted n)) :
      Entries.get? (cs.foldl countConclusion counts) o.name =
        some (.counted (n + cs.count (.outcome o))) := by
    induction cs generalizing counts n with
    | nil => simpa using hn
    | cons c cs ih =>
      rw [List.foldl_cons, ih _ _ (get?_countConclusion hn c), List.count_cons]
      simp only [beq_iff_eq]
      congr 2
      omega
  have start : Entries.get? (Outcome.all.map fun o => (o.name, (0 : Number))) o.name =
      some (.counted 0) := by
    cases o <;> decide +kernel
  have all := counting (conclusions reports) _ 0 start
  rwa [Nat.zero_add] at all

theorem sum_counts (cs : List Conclusion) :
    (Outcome.all.map fun o => cs.count (.outcome o)).sum + cs.countP isReserved = cs.length := by
  induction cs with
  | nil => rfl
  | cons c cs ih =>
    rw [List.length_cons, ← ih]
    cases c with
    | outcome o => cases o <;> simp [Outcome.all, isReserved, List.count_cons] <;> omega
    | reserved l => simp [Outcome.all, isReserved, List.countP_cons, Nat.add_assoc]

/-- What a report says of the checks of a batch: one entry for each position, in their order, and in
the summary how many entries there are and of which kinds. -/
structure Tallied (visaTypeIds : List String) (outcomes : List (Except Raised CheckReport))
    (r : BatchReport) : Prop where
  placed : ∃ ps qs : List Nat, ps.Pairwise (· < ·) ∧ qs.Pairwise (· < ·) ∧
    (ps ++ qs).Perm (List.range visaTypeIds.length) ∧
    List.Forall₂ (fun n y => outcomes[n]? = some (.ok y)) ps r.reports ∧
    List.Forall₂ (fun n f => ∃ v e, visaTypeIds[n]? = some v ∧ outcomes[n]? = some (.error e) ∧
      f = failureOf v e) qs r.failures
  total : r.summary.total = visaTypeIds.length
  succeeded : r.summary.succeeded = r.reports.length
  failed : r.summary.failed = r.failures.length
  parts : r.summary.total = r.summary.succeeded + r.summary.failed
  review : r.summary.requiresReview = true ↔ ∃ y ∈ r.reports, y.result.escalated = true
  counts : ∀ o : Outcome, Entries.get? r.summary.outcomes o.name =
    some (.counted ((conclusions r.reports).count (.outcome o)))
  counted : (Outcome.all.map fun o => (conclusions r.reports).count (.outcome o)).sum +
    (conclusions r.reports).countP isReserved = r.summary.succeeded

def failure? (o : String × Except Raised CheckReport) : Option BatchFailure :=
  match o.2 with
  | .ok _ => none
  | .error e => some (failureOf o.1 e)

theorem tallied_report (caseId : String) {visaTypeIds : List String}
    {outcomes : List (Except Raised CheckReport)} (same : outcomes.length = visaTypeIds.length) :
    Tallied visaTypeIds outcomes (report caseId (visaTypeIds.zip outcomes)) := by
  have length : (visaTypeIds.zip outcomes).length = visaTypeIds.length := by simp [same]
  have one (o : String × Except Raised CheckReport) :
      (failure? o).isSome = !o.2.toOption.isSome := by
    rcases o with ⟨v, e | y⟩ <;> rfl
  obtain ⟨ps, qs, rising, rising', all, reports, failures⟩ :=
    filterMap_split one (visaTypeIds.zip outcomes)
  rw [length] at all
  refine ⟨⟨ps, qs, rising, rising', all, reports.imp ?_, failures.imp ?_⟩, length, rfl, rfl, ?_, ?_,
    fun o => get?_outcomeCounts _ o, ?_⟩
  · intro n y hy
    obtain ⟨⟨v, x⟩, hx, hy⟩ := Option.bind_eq_some_iff.1 hy
    cases x with
    | error e => cases hy
    | ok y' =>
      cases hy
      exact (List.getElem?_zip_eq_some.1 hx).2
  · intro n f hf
    obtain ⟨⟨v, x⟩, hx, hf⟩ := Option.bind_eq_some_iff.1 hf
    obtain ⟨hv, hx⟩ := List.getElem?_zip_eq_some.1 hx
    cases x with
    | error e =>
      cases hf
      exact ⟨v, e, hv, hx, rfl⟩
    | ok y => cases hf
  · have lengths := all.length_eq
    rw [List.length_append, List.length_range] at lengths
    exact (length.trans lengths.symm).trans
      (congrArg₂ _ reports.length_eq failures.length_eq)
  · simp only [BatchSummary.requiresReview, decide_eq_true_eq]
    refine List.length_pos_iff_exists_mem.trans ?_
    simp only [List.mem_filter]
    rfl
  · rw [sum_counts]
    exact List.length_map ..

end Batch
end VisaEligibility
