import Mathlib.Data.List.Basic
import Mathlib.Data.List.Induction
import VisaEligibility.Distinct
/-!
Lists with repetitions removed: their elements, and that filters and repeated removal keep the order
of first appearance.
-/
set_option autoImplicit false

namespace VisaEligibility

variable {α : Type} [DecidableEq α]

@[simp] theorem distinct_nil : distinct ([] : List α) = [] := rfl

theorem distinct_concat (l : List α) (a : α) :
    distinct (l ++ [a]) = if a ∈ distinct l then distinct l else distinct l ++ [a] := by
  unfold distinct
  rw [List.foldl_append]
  rfl

@[simp] theorem mem_distinct {a : α} {l : List α} : a ∈ distinct l ↔ a ∈ l := by
  induction l using List.reverseRecOn with
  | nil => rfl
  | append_singleton l b ih =>
    rw [distinct_concat]
    by_cases hb : b ∈ distinct l
    · have known : a = b → a ∈ l := fun h => ih.1 (h ▸ hb)
      simp only [hb, if_true, ih, List.mem_append, List.mem_singleton]
      exact ⟨.inl, fun h => h.elim id known⟩
    · simp only [hb, if_false, ih, List.mem_append, List.mem_singleton]

theorem pairwise_distinct (l : List α) :
    (distinct l).Pairwise fun a b => l.idxOf a < l.idxOf b := by
  induction l using List.reverseRecOn with
  | nil => exact .nil
  | append_singleton l c ih =>
    have kept : (distinct l).Pairwise fun a b => (l ++ [c]).idxOf a < (l ++ [c]).idxOf b := by
      refine ih.imp_of_mem fun ha hb first => ?_
      rwa [List.idxOf_append_of_mem (mem_distinct.1 ha), List.idxOf_append_of_mem (mem_distinct.1 hb)]
    rw [distinct_concat]
    split
    · exact kept
    · rename_i new
      refine List.pairwise_append.2 ⟨kept, List.pairwise_singleton .., fun a ha b hb => ?_⟩
      obtain rfl := List.mem_singleton.1 hb
      have here : a ∈ l := mem_distinct.1 ha
      have absent : b ∉ l := fun h => new (mem_distinct.2 h)
      have before : l.idxOf a < l.length := List.idxOf_lt_length_of_mem here
      rw [List.idxOf_append_of_mem here, List.idxOf_append_of_notMem absent]
      omega

theorem nodup_distinct (l : List α) : (distinct l).Nodup :=
  (pairwise_distinct l).imp fun {a b} first (same : a = b) => Nat.lt_irrefl _ (same ▸ first)

theorem distinct_perm {l m : List α} (h : l.Perm m) : (distinct l).Perm (distinct m) :=
  (List.perm_ext_iff_of_nodup (nodup_distinct l) (nodup_distinct m)).2 fun a => by
    rw [mem_distinct, mem_distinct, h.mem_iff]

theorem distinct_filter (p : α → Bool) (l : List α) :
    distinct (l.filter p) = (distinct l).filter p := by
  induction l using List.reverseRecOn with
  | nil => rfl
  | append_singleton l a ih =>
    rw [List.filter_append, distinct_concat]
    cases ha : p a with
    | false =>
      rw [List.filter_cons_of_neg (by simp [ha]), List.filter_nil, List.append_nil, ih]
      split
      · rfl
      · rw [List.filter_append, List.filter_cons_of_neg (by simp [ha]), List.filter_nil,
          List.append_nil]
    | true =>
      rw [List.filter_cons_of_pos ha, List.filter_nil, distinct_concat, ih]
      have same : a ∈ (distinct l).filter p ↔ a ∈ distinct l := by simp [ha]
      simp only [same]
      split
      · rfl
      · rw [List.filter_append, List.filter_cons_of_pos ha, List.filter_nil]

theorem distinct_append (l m : List α) :
    distinct (l ++ m) = distinct l ++ (distinct m).filter fun a => a ∉ l := by
  induction m using List.reverseRecOn with
  | nil => simp
  | append_singleton m a ih =>
    rw [← List.append_assoc, distinct_concat, distinct_concat, ih]
    by_cases inFirst : a ∈ l
    · have known : a ∈ distinct l ++ (distinct m).filter fun a => a ∉ l := by simp [inFirst]
      rw [if_pos known]
      split
      · rfl
      · simp [List.filter_append, inFirst]
    · by_cases inSecond : a ∈ m
      · simp [inFirst, inSecond]
      · simp [inFirst, inSecond, List.filter_append]

theorem distinct_of_nodup {l : List α} (h : l.Nodup) : distinct l = l := by
  induction l using List.reverseRecOn with
  | nil => rfl
  | append_singleton l a ih =>
    obtain ⟨nodup, -, apart⟩ := List.nodup_append.1 h
    have new : a ∉ l := fun ha => apart a ha a (List.mem_singleton.2 rfl) rfl
    rw [distinct_concat, ih nodup, if_neg new]

theorem distinct_cons (a : α) (l : List α) :
    distinct (a :: l) = a :: distinct (l.filter fun b => !b == a) := by
  have other : (fun b => decide (b ∉ [a])) = fun b => !b == a := by
    funext b
    by_cases same : b = a <;> simp [same]
  rw [← List.singleton_append, distinct_append, distinct_filter, other]
  rfl

theorem distinct_eq_eraseDups (l : List α) : distinct l = l.eraseDups := by
  induction h : l.length using Nat.strongRecOn generalizing l with
  | _ n ih =>
    cases l with
    | nil => rfl
    | cons a l =>
      have fewer : (l.filter fun b => !b == a).length < n := by
        rw [← h, List.length_cons]
        exact Nat.lt_succ_of_le (List.length_filter_le _ _)
      rw [distinct_cons, List.eraseDups_cons, ih _ fewer _ rfl]

theorem distinct_sublist (l : List α) : (distinct l).Sublist l := by
  induction l using List.reverseRecOn with
  | nil => exact .refl _
  | append_singleton l a ih =>
    rw [distinct_concat]
    split
    · exact ih.trans (List.sublist_append_left l [a])
    · exact ih.append (.refl [a])

theorem distinct_flatMap_distinct {β : Type} (f : β → List α) (l : List β) :
    distinct (l.flatMap fun b => distinct (f b)) = distinct (l.flatMap f) := by
  induction l with
  | nil => rfl
  | cons b l ih =>
    rw [List.flatMap_cons, List.flatMap_cons, distinct_append, distinct_append, ih,
      distinct_of_nodup (nodup_distinct _)]
    simp only [mem_distinct]

end VisaEligibility
