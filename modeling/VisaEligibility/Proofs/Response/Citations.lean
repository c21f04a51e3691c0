import Mathlib.Data.List.Forall2
import Mathlib.Data.List.Perm.Subperm
import VisaEligibility.Proofs.Distinct
import VisaEligibility.Response.Citation
/-!
The places that an answer cites. They are the numbers that stand in brackets and are places of the
context, each one once and in the order in which the answer first marks them.
-/
set_option autoImplicit false

namespace VisaEligibility

namespace Response

def Closes (text : List Char) (n : Nat) : Prop :=
  ∃ digits back, text = digits ++ ']' :: back ∧ digits ≠ [] ∧
    (∀ c ∈ digits, c.isDigit = true) ∧ Number.ofDigits digits = n

/-- A number stands in brackets in a text. -/
def Marks (text : List Char) (n : Nat) : Prop :=
  ∃ front back, text = front ++ '[' :: back ∧ Closes back n

/-- A text has marked one number where it has not yet marked another. -/
def MarksFirst (text : List Char) (m n : Nat) : Prop :=
  ∃ front back, text = front ++ back ∧ Marks front m ∧ ¬Marks front n

section Marks

variable {n : Nat} {c : Char} {cs ds : List Char}

theorem not_marks_nil : ¬Marks [] n := by
  rintro ⟨front, back, split, -⟩
  simp at split

theorem marks_cons : Marks (c :: cs) n ↔ (c = '[' ∧ Closes cs n) ∨ Marks cs n := by
  constructor
  · rintro ⟨front, back, split, closes⟩
    cases front with
    | nil =>
      obtain ⟨rfl, rfl⟩ := List.cons.inj split
      exact .inl ⟨rfl, closes⟩
    | cons d front =>
      obtain ⟨-, rfl⟩ := List.cons.inj split
      exact .inr ⟨front, back, rfl, closes⟩
  · rintro (⟨rfl, closes⟩ | ⟨front, back, rfl, closes⟩)
    · exact ⟨[], cs, rfl, closes⟩
    · exact ⟨c :: front, back, rfl, closes⟩

theorem marks_digits (hd : ∀ c ∈ ds, c.isDigit = true) : Marks (ds ++ cs) n ↔ Marks cs n := by
  induction ds with
  | nil => rfl
  | cons d ds ih =>
    have digit := hd d List.mem_cons_self
    have other : d ≠ '[' := by
      rintro rfl
      cases digit
    rw [List.cons_append, marks_cons, ih fun c hc => hd c (List.mem_cons_of_mem d hc)]
    simp [other]

theorem closes_digits (hd : ∀ c ∈ ds, c.isDigit = true) (hc : c.isDigit = false) :
    Closes (ds ++ c :: cs) n ↔ ds ≠ [] ∧ c = ']' ∧ Number.ofDigits ds = n := by
  constructor
  · rintro ⟨digits, back, split, some, digit, value⟩
    have taken := congrArg (List.takeWhile Char.isDigit) split
    have none : (']' : Char).isDigit = false := rfl
    rw [List.takeWhile_append_of_pos hd, List.takeWhile_cons_of_neg (by simp [hc]),
      List.takeWhile_append_of_pos digit, List.takeWhile_cons_of_neg (by simp [none]),
      List.append_nil, List.append_nil] at taken
    subst taken
    exact ⟨some, (List.cons.inj (List.append_cancel_left split)).1, value⟩
  · rintro ⟨some, rfl, value⟩
    exact ⟨ds, cs, rfl, some, hd, value⟩

theorem not_closes_digits (hd : ∀ c ∈ ds, c.isDigit = true) : ¬Closes ds n := by
  rintro ⟨digits, back, rfl, -⟩
  have digit := hd ']' (by simp)
  cases digit

end Marks

def Bracket.seen : Bracket → List Char
  | outside => []
  | inside ds => '[' :: ds

def Bracket.IsNumber : Bracket → Prop
  | outside => True
  | inside ds => ∀ c ∈ ds, c.isDigit = true

theorem mem_bracketed {n : Nat} {b : Bracket} {cs : List Char} (hb : b.IsNumber) :
    n ∈ bracketed b cs ↔ Marks (b.seen ++ cs) n := by
  -- what is still to be read stands behind what the scan has seen of a number
  fun_induction bracketed b cs with
  | case1 b =>
    refine iff_of_false List.not_mem_nil ?_
    cases b with
    | outside => exact not_marks_nil
    | inside ds =>
      have digits : Marks (ds ++ []) n ↔ Marks [] n := marks_digits hb
      rw [List.append_nil] at digits
      rw [Bracket.seen, List.append_nil, marks_cons, digits]
      exact not_or.2 ⟨fun closes => not_closes_digits hb closes.2, not_marks_nil⟩
  | case2 c cs ih =>
    by_cases bracket : c = '['
    · subst bracket
      exact ih (List.forall_mem_nil _)
    · rw [if_neg bracket] at ih ⊢
      refine (ih trivial).trans ?_
      rw [Bracket.seen, List.nil_append, List.nil_append, marks_cons]
      simp [bracket]
  | case3 ds c cs digit ih =>
    have digits : ∀ d ∈ ds ++ [c], d.isDigit = true :=
      List.forall_mem_append.2 ⟨hb, by simpa using digit⟩
    rw [ih digits]
    simp [Bracket.seen]
  | case4 ds c cs other closing ih =>
    obtain ⟨rfl, some⟩ : c = ']' ∧ ds ≠ [] := by simpa using closing
    have outer : Marks (ds ++ ']' :: cs) n ↔ Marks cs n := by
      rw [marks_digits hb, marks_cons]
      simp
    rw [List.mem_cons, ih trivial, Bracket.seen, Bracket.seen, List.cons_append, marks_cons, outer,
      closes_digits hb rfl, List.nil_append]
    simp [some, eq_comm]
  | case5 ds c cs other closing ih =>
    have unclosed : ¬Closes (ds ++ c :: cs) n := by
      rw [closes_digits hb (by simpa using other)]
      rintro ⟨some, rfl, -⟩
      exact closing (by simpa using some)
    have rest : Marks ('[' :: ds ++ c :: cs) n ↔ Marks (c :: cs) n := by
      rw [List.cons_append, marks_cons, marks_digits hb]
      simp [unclosed]
    rw [Bracket.seen, rest]
    by_cases bracket : c = '['
    · subst bracket
      exact ih (List.forall_mem_nil _)
    · rw [if_neg bracket] at ih ⊢
      refine (ih trivial).trans ?_
      rw [Bracket.seen, List.nil_append, marks_cons]
      simp [bracket]

theorem mem_bracketed_outside {n : Nat} {cs : List Char} :
    n ∈ bracketed .outside cs ↔ Marks cs n := mem_bracketed trivial

theorem exists_front (b : Bracket) (cs : List Char) (j : Nat) :
    ∃ front back, cs = front ++ back ∧ bracketed b front = (bracketed b cs).take j := by
  fun_induction bracketed b cs generalizing j with
  | case1 b => exact ⟨[], [], rfl, by simp [bracketed]⟩
  | case2 c cs ih =>
    obtain ⟨front, back, rfl, same⟩ := ih j
    exact ⟨c :: front, back, rfl, same⟩
  | case3 ds c cs digit ih =>
    obtain ⟨front, back, rfl, same⟩ := ih j
    exact ⟨c :: front, back, rfl, by rw [bracketed, if_pos digit, same]⟩
  | case4 ds c cs other closing ih =>
    cases j with
    | zero => exact ⟨[], c :: cs, rfl, rfl⟩
    | succ j =>
      obtain ⟨front, back, rfl, same⟩ := ih j
      refine ⟨c :: front, back, rfl, ?_⟩
      rw [bracketed, if_neg other, if_pos closing, same, List.take_succ_cons]
  | case5 ds c cs other closing ih =>
    obtain ⟨front, back, rfl, same⟩ := ih j
    exact ⟨c :: front, back, rfl, by rw [bracketed, if_neg other, if_neg closing, same]⟩

section Places

variable {text : String} {count m n : Nat}

theorem mem_citedPlaces :
    n ∈ citedPlaces text count ↔ Marks text.toList n ∧ 1 ≤ n ∧ n ≤ count := by
  rw [citedPlaces, mem_distinct, List.mem_filter, mem_bracketed_outside]
  simp

theorem nodup_citedPlaces : (citedPlaces text count).Nodup := nodup_distinct _

theorem marksFirst_of_idxOf {cs : List Char} (hm : m ∈ bracketed .outside cs)
    (before : (bracketed .outside cs).idxOf m < (bracketed .outside cs).idxOf n) :
    MarksFirst cs m n := by
  obtain ⟨front, back, rfl, same⟩ := exists_front .outside cs ((bracketed .outside cs).idxOf m + 1)
  refine ⟨front, back, rfl, ?_, ?_⟩
  · rw [← mem_bracketed_outside, same]
    exact List.mem_take_iff_idxOf_lt hm |>.2 (Nat.lt_succ_self _)
  · rw [← mem_bracketed_outside, same]
    intro hn
    have found := (List.mem_take_iff_idxOf_lt (List.mem_of_mem_take hn)).1 hn
    omega

theorem pairwise_citedPlaces : (citedPlaces text count).Pairwise (MarksFirst text.toList) := by
  rw [citedPlaces, distinct_filter]
  refine ((pairwise_distinct _).imp_of_mem fun hm hn before => ?_).filter _
  exact marksFirst_of_idxOf (mem_distinct.1 hm) before

theorem forall₂_filterMap {α β : Type} {f : α → Option β} {p : α → Prop} {l : List α}
    (hf : ∀ a ∈ l, p a ∧ f a ≠ none) :
    List.Forall₂ (fun a b => p a ∧ f a = some b) l (l.filterMap f) := by
  induction l with
  | nil => exact .nil
  | cons a l ih =>
    obtain ⟨ha, some⟩ := hf a List.mem_cons_self
    obtain ⟨b, hb⟩ := Option.ne_none_iff_exists'.1 some
    rw [List.filterMap_cons_some hb]
    exact .cons ⟨ha, hb⟩ (ih fun a ha => hf a (List.mem_cons_of_mem _ ha))

theorem forall₂_excerpts (chunks : List Chunk) : List.Forall₂
    (fun n e => 1 ≤ n ∧ ∃ c, chunks[n - 1]? = some c ∧ e = excerptOf c)
    (citedPlaces text chunks.length) (excerpts text chunks) := by
  have present : ∀ n ∈ citedPlaces text chunks.length,
      1 ≤ n ∧ chunks[n - 1]?.map excerptOf ≠ none := by
    intro n hn
    obtain ⟨-, low, high⟩ := mem_citedPlaces.1 hn
    rw [Ne, Option.map_eq_none_iff, List.getElem?_eq_none_iff]
    omega
  refine (forall₂_filterMap present).imp fun n e he => ⟨he.1, ?_⟩
  obtain ⟨c, hc, rfl⟩ := Option.map_eq_some_iff.1 he.2
  exact ⟨c, hc, rfl⟩

theorem length_citedPlaces_le : (citedPlaces text count).length ≤ count := by
  have inside : citedPlaces text count ⊆ (List.range count).map (· + 1) := by
    intro n hn
    obtain ⟨-, low, high⟩ := mem_citedPlaces.1 hn
    exact List.mem_map.2 ⟨n - 1, List.mem_range.2 (by omega), by omega⟩
  have most := (List.subperm_of_subset nodup_citedPlaces inside).length_le
  simpa using most

theorem excerpts_nil (text : String) : excerpts text [] = [] := by
  have none : citedPlaces text 0 = [] :=
    List.length_eq_zero_iff.1 (Nat.le_zero.1 length_citedPlaces_le)
  exact congrArg (List.filterMap _) none

end Places
end Response
end VisaEligibility
