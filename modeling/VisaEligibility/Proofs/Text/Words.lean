import VisaEligibility.Text.Blank
/-!
The words of a text: what stands between white space. Written with single spaces and trimmed, a text
is its words with one space between them, and it is known by its words.
-/
set_option autoImplicit false

namespace VisaEligibility.Text

def words (cs : List Char) : List (List Char) := (cs.splitOnP isBlank).filter fun w => !w.isEmpty

def unwords : List (List Char) → List Char
  | [] => []
  | [w] => w
  | w :: ws => w ++ ' ' :: unwords ws

section Words

variable {c : Char} {cs w : List Char}

@[simp] theorem words_nil : words [] = [] := rfl

theorem words_append_cons (front back : List Char) (blank : isBlank c = true) :
    words (front ++ c :: back) = words front ++ words back := by
  unfold words
  rw [List.splitOnP_append_cons _ _ blank, List.filter_append]

theorem words_cons_of_blank (blank : isBlank c = true) : words (c :: cs) = words cs :=
  words_append_cons [] cs blank

theorem words_of_blank (h : ∀ c ∈ cs, isBlank c = true) : words cs = [] := by
  induction cs with
  | nil => rfl
  | cons c cs ih =>
    obtain ⟨blank, h⟩ := List.forall_mem_cons.1 h
    rw [words_cons_of_blank blank, ih h]

theorem words_append_of_blank {blanks : List Char} (h : ∀ c ∈ blanks, isBlank c = true) :
    words (cs ++ blanks) = words cs := by
  cases blanks with
  | nil => rw [List.append_nil]
  | cons c blanks =>
    obtain ⟨blank, h⟩ := List.forall_mem_cons.1 h
    rw [words_append_cons cs blanks blank, words_of_blank h, List.append_nil]

theorem words_of_visible (some : w ≠ []) (h : ∀ c ∈ w, isBlank c = false) : words w = [w] := by
  unfold words
  rw [List.splitOnP_eq_singleton h, List.filter_cons_of_pos (by simpa using some), List.filter_nil]

theorem words_cons_of_visible (visible : isBlank c = false) : words (c :: cs) =
    (c :: cs.takeWhile (!isBlank ·)) :: words (cs.dropWhile (!isBlank ·)) := by
  have word : ∀ d ∈ c :: cs.takeWhile (!isBlank ·), isBlank d = false := by
    refine List.forall_mem_cons.2 ⟨visible, fun d hd => ?_⟩
    simpa using List.all_eq_true.1 List.all_takeWhile d hd
  have single := words_of_visible (List.cons_ne_nil _ _) word
  have whole : c :: cs =
      (c :: cs.takeWhile (!isBlank ·)) ++ cs.dropWhile (!isBlank ·) := by
    rw [List.cons_append, List.takeWhile_append_dropWhile]
  rw [whole]
  cases rest : cs.dropWhile (!isBlank ·) with
  | nil => rw [List.append_nil, words_nil, single]
  | cons d ds =>
    have blank : isBlank d = true := by
      have := List.head?_dropWhile_not (!isBlank ·) cs
      simpa [rest] using this
    rw [words_cons_of_blank blank, words_append_cons _ _ blank, single]
    rfl

theorem words_eq_nil_iff : words cs = [] ↔ ∀ c ∈ cs, isBlank c = true := by
  refine ⟨fun none => ?_, words_of_blank⟩
  induction cs with
  | nil => simp
  | cons c cs ih =>
    cases hc : isBlank c with
    | true =>
      rw [words_cons_of_blank hc] at none
      exact List.forall_mem_cons.2 ⟨hc, ih none⟩
    | false =>
      rw [words_cons_of_visible hc] at none
      cases none

theorem isBlank_of_mem_splitOnP (hw : w ∈ cs.splitOnP isBlank) : ∀ c ∈ w, isBlank c = false := by
  induction cs generalizing w with
  | nil =>
    rw [List.splitOnP_nil] at hw
    simp [List.mem_singleton.1 hw]
  | cons c cs ih =>
    obtain ⟨v, vs, hv⟩ := List.exists_cons_of_ne_nil (List.splitOnP_ne_nil isBlank cs)
    rw [List.splitOnP_cons_eq_if_modifyHead] at hw
    cases hc : isBlank c with
    | true =>
      rw [if_pos hc] at hw
      rcases List.mem_cons.1 hw with rfl | hw
      · simp
      · exact ih hw
    | false =>
      rw [if_neg (by simp [hc]), hv, List.modifyHead_cons] at hw
      rcases List.mem_cons.1 hw with rfl | hw
      · exact List.forall_mem_cons.2 ⟨hc, ih (by simp [hv])⟩
      · exact ih (by simp [hv, hw])

theorem mem_words (hw : w ∈ words cs) : w ≠ [] ∧ ∀ c ∈ w, isBlank c = false := by
  obtain ⟨piece, some⟩ := List.mem_filter.1 hw
  exact ⟨by simpa using some, isBlank_of_mem_splitOnP piece⟩

theorem words_unwords {ws : List (List Char)}
    (h : ∀ w ∈ ws, w ≠ [] ∧ ∀ c ∈ w, isBlank c = false) : words (unwords ws) = ws := by
  induction ws with
  | nil => rfl
  | cons w ws ih =>
    obtain ⟨⟨some, visible⟩, h⟩ := List.forall_mem_cons.1 h
    cases ws with
    | nil => exact words_of_visible some visible
    | cons v vs =>
      have space : isBlank ' ' = true := by decide
      rw [unwords, words_append_cons _ _ space, words_of_visible some visible, ih h]
      · rfl
      · simp

end Words

/-! ### White space collapsed and trimmed -/

section Trim

variable {c : Char} {cs : List Char}

theorem trimRight_cons (rest : trimRight cs ≠ []) : trimRight (c :: cs) = c :: trimRight cs := by
  unfold trimRight at *
  rw [List.reverse_cons, List.dropWhile_append, if_neg (by simpa using rest), List.reverse_append]
  rfl

theorem trimRight_cons_of_visible (visible : isBlank c = false) :
    trimRight (c :: cs) = c :: trimRight cs := by
  by_cases rest : trimRight cs = []
  · rw [rest]
    unfold trimRight at *
    rw [List.reverse_cons, List.dropWhile_append, if_pos (by simpa using rest)]
    simp [visible]
  · exact trimRight_cons rest

theorem trimChars_of_visible (h : ∀ c ∈ cs, isBlank c = false) : trimChars cs = cs := by
  have left : trimLeft cs = cs := by
    cases cs with
    | nil => rfl
    | cons c cs => rw [trimLeft, List.dropWhile_cons_of_neg (by simp [h])]
  rw [trimChars, left]
  clear left
  induction cs with
  | nil => rfl
  | cons c cs ih =>
    obtain ⟨visible, rest⟩ := List.forall_mem_cons.1 h
    rw [trimRight_cons_of_visible visible, ih rest]

theorem trim_of_visible {s : String} (h : ∀ c ∈ s.toList, isBlank c = false) : trim s = s := by
  rw [trim, trimChars_of_visible h, String.ofList_toList]

theorem collapse_cons_of_visible (visible : isBlank c = false) :
    collapse (c :: cs) = c :: collapse cs := by
  cases cs <;> simp [collapse, visible]

theorem trimLeft_collapse (cs : List Char) : trimLeft (collapse cs) = collapse (trimLeft cs) := by
  have space : isBlank ' ' = true := by decide
  fun_induction collapse cs with
  | case1 => rfl
  | case2 c blank => simp [trimLeft, blank, space, collapse]
  | case3 c blank d ds blank' ih =>
    rw [ih]
    simp [trimLeft, blank]
  | case4 c blank d ds visible ih =>
    simp only [trimLeft] at ih ⊢
    rw [List.dropWhile_cons_of_pos space, List.dropWhile_cons_of_pos blank, ih]
  | case5 c cs visible ih =>
    rw [trimLeft, trimLeft, List.dropWhile_cons_of_neg visible, List.dropWhile_cons_of_neg visible,
      collapse_cons_of_visible (by simpa using visible)]

def indent : List Char → List Char
  | [] => []
  | c :: cs => if isBlank c && !(words cs).isEmpty then [' '] else []

theorem trimRight_collapse (cs : List Char) :
    trimRight (collapse cs) = indent cs ++ unwords (words cs) := by
  have space : isBlank ' ' = true := by decide
  fun_induction collapse cs with
  | case1 => rfl
  | case2 c blank => simp [trimRight, space, indent, words_cons_of_blank blank]; rfl
  | case3 c blank d ds blank' ih =>
    rw [ih]
    simp [indent, blank, blank', words_cons_of_blank]
  | case4 c blank d ds visible ih =>
    have visible : isBlank d = false := by simpa using visible
    have some : words (d :: ds) ≠ [] := by simp [words_cons_of_visible visible]
    have own : indent (d :: ds) = [] := by simp [indent, visible]
    have rest : trimRight (collapse (d :: ds)) ≠ [] := by
      rw [collapse_cons_of_visible visible, trimRight_cons_of_visible visible]
      exact List.cons_ne_nil _ _
    rw [trimRight_cons rest, ih, own, words_cons_of_blank blank]
    simp [indent, blank, some]
  | case5 c cs visible ih =>
    have visible : isBlank c = false := by simpa using visible
    rw [trimRight_cons_of_visible visible, ih, words_cons_of_visible visible]
    cases cs with
    | nil => simp [indent, visible, unwords]
    | cons d ds =>
      cases hd : isBlank d with
      | true =>
        have single : (d :: ds).takeWhile (!isBlank ·) = [] := by simp [hd]
        have rest : (d :: ds).dropWhile (!isBlank ·) = d :: ds := by simp [hd]
        rw [single, rest]
        cases later : words (d :: ds) with
        | nil => simp [indent, visible, hd, words_cons_of_blank hd ▸ later, unwords]
        | cons w ws => simp [indent, visible, hd, words_cons_of_blank hd ▸ later, unwords]
      | false =>
        rw [words_cons_of_visible hd]
        simp only [indent, visible, hd, Bool.false_and, Bool.false_eq_true, if_false,
          List.takeWhile_cons, List.dropWhile_cons, Bool.not_false, if_true, List.nil_append]
        cases words (ds.dropWhile (!isBlank ·)) <;> rfl

theorem words_trimLeft (cs : List Char) : words (trimLeft cs) = words cs := by
  induction cs with
  | nil => rfl
  | cons c cs ih =>
    cases hc : isBlank c with
    | true =>
      rw [words_cons_of_blank hc, ← ih, trimLeft, List.dropWhile_cons_of_pos hc]
      rfl
    | false => rw [trimLeft, List.dropWhile_cons_of_neg (by simp [hc])]

/-- Collapsed and trimmed, a text is its words with one space between them. -/
theorem trimChars_collapse (cs : List Char) : trimChars (collapse cs) = unwords (words cs) := by
  have own : indent (trimLeft cs) = [] := by
    cases rest : trimLeft cs with
    | nil => rfl
    | cons c rest =>
      have visible : isBlank c = false := by
        have := List.head?_dropWhile_not isBlank cs
        rw [trimLeft] at rest
        simpa [rest] using this
      simp [indent, visible]
  rw [trimChars, trimLeft_collapse, trimRight_collapse, own, words_trimLeft, List.nil_append]

end Trim

end VisaEligibility.Text
