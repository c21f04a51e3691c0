/-!
Sorting by an order that need not be transitive, as where an invalid date is level with all others.
The run at the start of a list is taken as it is, backwards if it descends; every further element
goes into the sorted part at a place found by halving. The result has the same elements, and under a
total preorder it is sorted.
-/
set_option autoImplicit false

namespace VisaEligibility.Sorting

variable {α : Type}

def insert (before : α → α → Bool) (x : α) (l : List α) : List α :=
  match _h : l.drop (l.length / 2) with
  | [] => [x]
  | m :: back =>
    if before x m then insert before x (l.take (l.length / 2)) ++ m :: back
    else l.take (l.length / 2) ++ m :: insert before x back
termination_by l.length
decreasing_by
  all_goals
    have hl : (l.drop (l.length / 2)).length = back.length + 1 := by rw [_h]; rfl
    rw [List.length_drop] at hl
  · rw [List.length_take]
    omega
  · omega

/-- Splits off the elements that each follow their predecessor, the first one a given element. -/
def run (follows : α → α → Bool) (last : α) : List α → List α × List α
  | [] => ([], [])
  | x :: xs =>
    if follows x last then
      let (r, rest) := run follows x xs
      (x :: r, rest)
    else ([], x :: xs)

/-- Splits off the run at the start: the elements that do not descend, or those that descend, which
are turned around. -/
def firstRun (before : α → α → Bool) : List α → List α × List α
  | x :: y :: ys =>
    if before y x then
      let (r, rest) := run before y ys
      ((x :: y :: r).reverse, rest)
    else
      let (r, rest) := run (fun a b => !before a b) y ys
      (x :: y :: r, rest)
  | l => (l, [])

def sort (before : α → α → Bool) (l : List α) : List α :=
  let (sorted, rest) := firstRun before l
  rest.foldl (fun sorted x => insert before x sorted) sorted

theorem insert_perm (before : α → α → Bool) (x : α) (l : List α) :
    (insert before x l).Perm (x :: l) := by
  fun_induction insert before x l with
  | case1 l h =>
    have hl : (l.drop (l.length / 2)).length = 0 := by rw [h]; rfl
    rw [List.length_drop] at hl
    have : l = [] := List.length_eq_zero_iff.1 (by omega)
    subst this
    exact List.Perm.refl _
  | case2 l m back h hx ih =>
    have hl : l = l.take (l.length / 2) ++ m :: back := by rw [← h, List.take_append_drop]
    conv => rhs; rw [hl]
    exact ih.append_right _
  | case3 l m back h hx ih =>
    have hl : l = l.take (l.length / 2) ++ m :: back := by rw [← h, List.take_append_drop]
    conv => rhs; rw [hl]
    refine ((ih.cons m).append_left _).trans ?_
    refine (List.Perm.append_left _ (List.Perm.swap x m back)).trans ?_
    exact List.perm_middle

theorem run_append (follows : α → α → Bool) (last : α) (l : List α) :
    (run follows last l).1 ++ (run follows last l).2 = l := by
  induction l generalizing last with
  | nil => rfl
  | cons x xs ih =>
    by_cases h : follows x last = true
    · simp [run, h, ih]
    · simp [run, h]

theorem firstRun_perm (before : α → α → Bool) (l : List α) :
    ((firstRun before l).1 ++ (firstRun before l).2).Perm l := by
  match l with
  | [] => exact List.Perm.refl _
  | [x] => exact List.Perm.refl _
  | x :: y :: ys =>
    by_cases h : before y x = true
    · simp only [firstRun, h, if_true]
      refine ((List.reverse_perm _).append_right _).trans ?_
      simp only [List.cons_append, run_append]
      exact List.Perm.refl _
    · simp only [firstRun, h, Bool.false_eq_true, if_false, List.cons_append, run_append]
      exact List.Perm.refl _

theorem foldl_insert_perm (before : α → α → Bool) (rest sorted : List α) :
    (rest.foldl (fun sorted x => insert before x sorted) sorted).Perm (sorted ++ rest) := by
  induction rest generalizing sorted with
  | nil => simp
  | cons x xs ih =>
    refine (ih (insert before x sorted)).trans ?_
    refine ((insert_perm before x sorted).append_right xs).trans ?_
    exact List.perm_middle.symm

theorem sort_perm (before : α → α → Bool) (l : List α) : (sort before l).Perm l :=
  (foldl_insert_perm before _ _).trans (firstRun_perm before l)

@[simp] theorem mem_sort {before : α → α → Bool} {l : List α} {a : α} :
    a ∈ sort before l ↔ a ∈ l := (sort_perm before l).mem_iff

def Sorted (before : α → α → Bool) (l : List α) : Prop :=
  l.Pairwise fun a b => before b a = false

/-- The comparisons of total preorders: no two elements come before one another, and what comes
before neither of two levels comes before none between them. -/
structure IsPreorder (before : α → α → Bool) : Prop where
  asymm : ∀ a b, before a b = true → before b a = false
  trans : ∀ a b c, before b a = false → before c b = false → before c a = false

theorem insert_sorted {before : α → α → Bool} (hb : IsPreorder before) (x : α) (l : List α)
    (hl : Sorted before l) : Sorted before (insert before x l) := by
  fun_induction insert before x l with
  | case1 l h => simp [Sorted]
  | case2 l m back h hx ih =>
    have hs : l = l.take (l.length / 2) ++ m :: back := by rw [← h, List.take_append_drop]
    unfold Sorted at hl
    rw [hs, List.pairwise_append] at hl
    obtain ⟨hfront, hback, hcross⟩ := hl
    refine List.pairwise_append.2 ⟨ih hfront, hback, ?_⟩
    intro a ha b hbm
    rcases List.mem_cons.1 ((insert_perm before x _).mem_iff.1 ha) with rfl | ha
    · rcases List.mem_cons.1 hbm with rfl | hbm
      · exact hb.asymm _ _ hx
      · exact hb.trans _ m _ (hb.asymm _ _ hx) (List.rel_of_pairwise_cons hback hbm)
    · exact hcross a ha b hbm
  | case3 l m back h hx ih =>
    have hs : l = l.take (l.length / 2) ++ m :: back := by rw [← h, List.take_append_drop]
    unfold Sorted at hl
    rw [hs, List.pairwise_append] at hl
    obtain ⟨hfront, hback, hcross⟩ := hl
    have hxm : before x m = false := by simpa using hx
    have hm : ∀ b ∈ insert before x back, before b m = false := by
      intro b hbm
      rcases List.mem_cons.1 ((insert_perm before x back).mem_iff.1 hbm) with rfl | hbm
      · exact hxm
      · exact List.rel_of_pairwise_cons hback hbm
    refine List.pairwise_append.2
      ⟨hfront, List.pairwise_cons.2 ⟨hm, ih (List.pairwise_cons.1 hback).2⟩, ?_⟩
    intro a ha b hbm
    have ham := hcross a ha m List.mem_cons_self
    rcases List.mem_cons.1 hbm with rfl | hbm
    · exact ham
    · exact hb.trans _ m _ ham (hm b hbm)

theorem foldl_insert_sorted {before : α → α → Bool} (hb : IsPreorder before) (rest sorted : List α)
    (hs : Sorted before sorted) :
    Sorted before (rest.foldl (fun sorted x => insert before x sorted) sorted) := by
  induction rest generalizing sorted with
  | nil => exact hs
  | cons x xs ih => exact ih _ (insert_sorted hb x sorted hs)

theorem pairwise_run {f : α → α → Bool} {r : α → α → Prop}
    (hr : ∀ a b, f b a = true → r a b) (ht : ∀ a b c, r a b → r b c → r a c) (last : α)
    (l : List α) : (last :: (run f last l).1).Pairwise r := by
  induction l generalizing last with
  | nil => simp [run]
  | cons x xs ih =>
    by_cases h : f x last = true
    · simp only [run, h, if_true]
      refine List.pairwise_cons.2 ⟨fun b hbm => ?_, ih x⟩
      rcases List.mem_cons.1 hbm with rfl | hbm
      · exact hr _ _ h
      · exact ht _ _ _ (hr _ _ h) (List.rel_of_pairwise_cons (ih x) hbm)
    · simp [run, h]

theorem firstRun_sorted {before : α → α → Bool} (hb : IsPreorder before) (l : List α) :
    Sorted before (firstRun before l).1 := by
  match l with
  | [] => simp [firstRun, Sorted]
  | [x] => simp [firstRun, Sorted]
  | x :: y :: ys =>
    by_cases h : before y x = true
    · have hp := pairwise_run (r := fun a b => before a b = false) (fun a b => hb.asymm b a)
        (fun a b c hab hbc => hb.trans c b a hbc hab) x (y :: ys)
      simp only [run, h, if_true] at hp
      simp only [firstRun, h, if_true, Sorted]
      exact List.pairwise_reverse.2 hp
    · have h : before y x = false := by simpa using h
      have hp := pairwise_run (f := fun a b => !before a b)
        (r := fun a b => before b a = false) (fun a b hab => by simpa using hab)
        (fun a b c hab hbc => hb.trans a b c hab hbc) x (y :: ys)
      simp only [run, h, Bool.not_false, if_true] at hp
      simp only [firstRun, h, Bool.false_eq_true, if_false, Sorted]
      exact hp

theorem sort_sorted {before : α → α → Bool} (hb : IsPreorder before) (l : List α) :
    Sorted before (sort before l) :=
  foldl_insert_sorted hb _ _ (firstRun_sorted hb l)

section Agreeing

variable {before before' : α → α → Bool}

theorem insert_congr (x : α) (l : List α) (h : ∀ y ∈ l, before x y = before' x y) :
    insert before x l = insert before' x l := by
  fun_induction insert before' x l with
  | case1 l hl =>
    rw [insert]
    split
    · rfl
    · rename_i hl'
      cases hl.symm.trans hl'
  | case2 l m back hl hx ih =>
    rw [insert]
    split
    · rename_i hl'
      cases hl.symm.trans hl'
    · rename_i hl'
      cases hl.symm.trans hl'
      rw [h m (List.mem_of_mem_drop (hl ▸ List.mem_cons_self)), if_pos hx,
        ih fun y hy => h y (List.mem_of_mem_take hy)]
  | case3 l m back hl hx ih =>
    rw [insert]
    split
    · rename_i hl'
      cases hl.symm.trans hl'
    · rename_i hl'
      cases hl.symm.trans hl'
      rw [h m (List.mem_of_mem_drop (hl ▸ List.mem_cons_self)), if_neg hx,
        ih fun y hy => h y (List.mem_of_mem_drop (hl ▸ List.mem_cons_of_mem m hy))]

theorem run_congr {follows follows' : α → α → Bool} (last : α) (l : List α)
    (h : ∀ a ∈ last :: l, ∀ b ∈ last :: l, follows a b = follows' a b) :
    run follows last l = run follows' last l := by
  induction l generalizing last with
  | nil => rfl
  | cons x xs ih =>
    rw [run, run, h x (by simp) last (by simp), ih x fun a ha b hb => h a (by simp [ha]) b (by simp [hb])]

theorem firstRun_congr (l : List α) (h : ∀ a ∈ l, ∀ b ∈ l, before a b = before' a b) :
    firstRun before l = firstRun before' l := by
  match l with
  | [] => rfl
  | [x] => rfl
  | x :: y :: ys =>
    have tail : ∀ a ∈ y :: ys, ∀ b ∈ y :: ys, before a b = before' a b :=
      fun a ha b hb => h a (List.mem_cons_of_mem x ha) b (List.mem_cons_of_mem x hb)
    have turned : ∀ a ∈ y :: ys, ∀ b ∈ y :: ys, (!before a b) = !before' a b :=
      fun a ha b hb => congrArg (!·) (tail a ha b hb)
    rw [firstRun, firstRun, h y (by simp) x (by simp), run_congr y ys tail, run_congr y ys turned]

theorem sort_congr (l : List α) (h : ∀ a ∈ l, ∀ b ∈ l, before a b = before' a b) :
    sort before l = sort before' l := by
  have inserted (rest sorted : List α) (hm : ∀ a ∈ sorted ++ rest, a ∈ l) :
      rest.foldl (fun sorted x => insert before x sorted) sorted =
        rest.foldl (fun sorted x => insert before' x sorted) sorted := by
    induction rest generalizing sorted with
    | nil => rfl
    | cons x xs ih =>
      have hx : x ∈ l := hm x (by simp)
      have one : insert before x sorted = insert before' x sorted :=
        insert_congr x sorted fun y hy => h x hx y (hm y (by simp [hy]))
      rw [List.foldl_cons, List.foldl_cons, one]
      refine ih _ fun a ha => hm a ?_
      rcases List.mem_append.1 ha with ha | ha
      · rcases List.mem_cons.1 ((insert_perm before' x sorted).mem_iff.1 ha) with rfl | ha
        · simp
        · simp [ha]
      · simp [ha]
  unfold sort
  rw [firstRun_congr l h]
  exact inserted _ _ fun a ha => (firstRun_perm before' l).mem_iff.1 ha

end Agreeing

theorem isPreorder_of_cmp (cmp : α → α → Ordering) [Std.TransCmp cmp] :
    IsPreorder fun a b => cmp a b == .lt where
  asymm a b h := by
    have h : cmp a b = .lt := by simpa using h
    simp [Std.OrientedCmp.gt_of_lt h]
  trans a b c hba hcb := by
    have level (o : Ordering) : (o == .lt) = false ↔ o.isGE = true := by cases o <;> decide
    rw [level] at hba hcb ⊢
    exact Std.TransCmp.isGE_trans hcb hba

theorem transCmp_of_key {β : Type} (cmp : β → β → Ordering) [Std.TransCmp cmp] (key : α → β) :
    Std.TransCmp fun a b => cmp (key a) (key b) where
  eq_swap := Std.OrientedCmp.eq_swap
  isLE_trans := Std.TransCmp.isLE_trans

end VisaEligibility.Sorting
