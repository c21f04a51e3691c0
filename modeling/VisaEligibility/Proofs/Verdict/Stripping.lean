import Mathlib.Data.List.Basic
import Mathlib.Data.List.Flatten
import VisaEligibility.Verdict.Summary
import VisaEligibility.Proofs.Response.Spans
import VisaEligibility.Proofs.Text.Cuts
import VisaEligibility.Proofs.Text.Words
/-!
The explanation of a model answer beside the markers that are read from it. The explanation leaves out
the lines that announce a marker, and a marker may cross lines: the explanation is that of the answer
without its markers exactly if each line that a marker has a visible part on announces one.
-/
set_option autoImplicit false

namespace VisaEligibility.Summary

open Text (Units isBlank isLineBreak words unwords)
open Response (afterColon? announces confidenceKeyword confidenceMarker? dropFill dropKeyword? last?
  last?_eq_walk marked outcomeKeyword outcomeMarker? Swept unmarked walk)

/-- What the explanation keeps of a line. -/
def keptWords (line : List Char) : List (List Char) := if announces line then [] else words line

def explained (cs : List Char) : List (List Char) := (splitLines cs).flatMap keptWords

theorem splitLines_eq (cs : List Char) : splitLines cs = cs.splitOnP (· == '\n') := by
  induction cs with
  | nil => rfl
  | cons c cs ih =>
    rw [List.splitOnP_cons_eq_if_modifyHead, ← ih, splitLines]
    cases hl : splitLines cs with
    | nil => exact absurd (ih ▸ hl) (List.splitOnP_ne_nil _ _)
    | cons line lines => by_cases hc : c = '\n' <;> simp [hc]

theorem explained_line {line : List Char} (h : '\n' ∉ line) : explained line = keptWords line := by
  have whole : splitLines line = [line] := by
    rw [splitLines_eq, List.splitOnP_eq_singleton]
    exact fun c hc => by simpa using ne_of_mem_of_not_mem hc h
  rw [explained, whole, List.flatMap_singleton]

theorem explained_append {line : List Char} (h : '\n' ∉ line) (rest : List Char) :
    explained (line ++ '\n' :: rest) = keptWords line ++ explained rest := by
  have first : splitLines (line ++ '\n' :: rest) = line :: splitLines rest := by
    rw [splitLines_eq, splitLines_eq, List.splitOnP_append_cons_of_forall_mem]
    · exact fun c hc => by simpa using ne_of_mem_of_not_mem hc h
    · rfl
  rw [explained, first, List.flatMap_cons]
  rfl

theorem words_joinLines (lines : List (List Char)) :
    words (joinLines lines) = lines.flatMap words := by
  have space : isBlank ' ' = true := by decide
  fun_induction joinLines lines with
  | case1 => rfl
  | case2 line => rw [List.flatMap_singleton]
  | case3 line rest _ ih => rw [Text.words_append_cons _ _ space, ih, List.flatMap_cons]

theorem body_eq (text : String) : body text = unwords (explained text.toList) := by
  rw [body, Text.trimChars_collapse, words_joinLines, explained]
  congr 1
  induction splitLines text.toList with
  | nil => rfl
  | cons line lines ih =>
    rw [List.filter_cons, List.flatMap_cons, keptWords, ← ih]
    cases announces line <;> simp

theorem mem_explained {cs w : List Char} (hw : w ∈ explained cs) :
    w ≠ [] ∧ ∀ c ∈ w, isBlank c = false := by
  obtain ⟨line, -, hw⟩ := List.mem_flatMap.1 hw
  unfold keptWords at hw
  split at hw
  · cases hw
  · exact Text.mem_words hw

theorem explanation_eq_iff {text text' : String} :
    (∀ n, explanation text n = explanation text' n) ↔
      explained text.toList = explained text'.toList := by
  constructor
  · intro h
    let n := max (Units.ofList (body text)).length (Units.ofList (body text')).length
    have same := h n
    have fits : ¬n < (Units.ofList (body text)).length := Nat.not_lt.2 (Nat.le_max_left _ _)
    have fits' : ¬n < (Units.ofList (body text')).length := Nat.not_lt.2 (Nat.le_max_right _ _)
    simp only [explanation, shorten, if_neg fits, if_neg fits'] at same
    have bodies := Units.ofList_injective same
    rw [body_eq, body_eq] at bodies
    have read := congrArg words bodies
    rwa [Text.words_unwords fun _ => mem_explained, Text.words_unwords fun _ => mem_explained]
      at read
  · intro same n
    rw [explanation, explanation, body_eq, body_eq, same]

/-! ### White space at the end of a line -/

def Padded (cs ds : List Char) : Prop :=
  ∃ blanks, (∀ c ∈ blanks, isBlank c = true) ∧ ds = cs ++ blanks

namespace Padded

variable {cs ds : List Char}

theorem dropWhile (p : Char → Bool) (h : Padded cs ds) :
    Padded (cs.dropWhile p) (ds.dropWhile p) := by
  obtain ⟨blanks, hb, rfl⟩ := h
  rw [List.dropWhile_append]
  split
  · rename_i none
    rw [List.isEmpty_iff.1 none]
    exact ⟨_, fun c hc => hb c (List.dropWhile_sublist p |>.subset hc), rfl⟩
  · exact ⟨blanks, hb, rfl⟩

theorem dropFill (h : Padded cs ds) : Padded (dropFill cs) (dropFill ds) :=
  ((h.dropWhile _).dropWhile _).dropWhile _

theorem toLower_of_isBlank {c : Char} (blank : isBlank c = true) : c.toLower = c := by
  unfold Char.toLower
  rw [dif_neg]
  rintro ⟨low, high⟩
  have low : 65 ≤ c.toNat := low
  have high : c.toNat ≤ 90 := high
  simp only [isBlank, Bool.or_eq_true, Bool.and_eq_true, decide_eq_true_eq] at blank
  omega

theorem dropKeyword? {keyword : List Char}
    (visible : keyword.all (fun k => !isBlank k.toLower) = true) (h : Padded cs ds) :
    Option.Rel Padded (dropKeyword? keyword cs) (dropKeyword? keyword ds) := by
  induction keyword generalizing cs ds with
  | nil => exact .some h
  | cons k ks ih =>
    obtain ⟨letter, letters⟩ := Bool.and_eq_true_iff.1 (List.all_cons ▸ visible)
    obtain ⟨blanks, hb, rfl⟩ := h
    cases cs with
    | nil =>
      cases blanks with
      | nil => exact .none
      | cons b blanks =>
        have blank := hb b List.mem_cons_self
        have other : k.toLower ≠ b.toLower := by
          rw [toLower_of_isBlank blank]
          rintro rfl
          rw [blank] at letter
          cases letter
        rw [List.nil_append, Response.dropKeyword?, Response.dropKeyword?, if_neg other]
        exact .none
    | cons c cs =>
      rw [List.cons_append, Response.dropKeyword?, Response.dropKeyword?]
      split
      · exact ih letters ⟨blanks, hb, rfl⟩
      · exact .none

theorem head?_eq_colon (h : Padded cs ds) : cs.head? = some ':' ↔ ds.head? = some ':' := by
  have visible : isBlank ':' = false := by decide
  obtain ⟨blanks, hb, rfl⟩ := h
  cases cs with
  | nil =>
    cases blanks with
    | nil => simp
    | cons b blanks =>
      have other : b ≠ ':' := by
        rintro rfl
        simp [hb ':' List.mem_cons_self] at visible
      simp [other]
  | cons c cs => simp

theorem isSome_afterColon? (keyword : List Char)
    (visible : keyword.all (fun k => !isBlank k.toLower) = true) (h : Padded cs ds) :
    (afterColon? keyword cs).isSome = (afterColon? keyword ds).isSome := by
  have words := h.dropFill.dropKeyword? visible
  rw [afterColon?, afterColon?]
  generalize Response.dropKeyword? keyword (Response.dropFill cs) = o at words
  generalize Response.dropKeyword? keyword (Response.dropFill ds) = o' at words
  cases words with
  | none => rfl
  | @some cs ds h =>
    have colon := h.dropFill.head?_eq_colon
    simp only [Option.bind_eq_bind, Option.bind_some]
    generalize Response.dropFill cs = cs at colon
    generalize Response.dropFill ds = ds at colon
    split <;> split <;> simp_all [List.head?_eq_some_iff]

end Padded

theorem keptWords_append (line : List Char) {blanks : List Char}
    (h : ∀ c ∈ blanks, isBlank c = true) : keptWords (line ++ blanks) = keptWords line := by
  have padded : Padded line (line ++ blanks) := ⟨blanks, h, rfl⟩
  have outcome := padded.isSome_afterColon? outcomeKeyword (by decide)
  have confidence := padded.isSome_afterColon? confidenceKeyword (by decide)
  rw [keptWords, keptWords, announces, announces, outcome, confidence,
    Text.words_append_of_blank h]

theorem keptWords_of_blank {line : List Char} (h : ∀ c ∈ line, isBlank c = true) :
    keptWords line = [] := by
  rw [← List.nil_append line, keptWords_append [] h]
  rfl

/-! ### Lines with the characters that a marker covers -/

def flaggedLines (xs : List (Char × Bool)) : List (List (Char × Bool)) :=
  xs.splitOnP fun x => x.1 == '\n'

def unflagged (xs : List (Char × Bool)) : List Char := (xs.filter fun x => !x.2).map Prod.fst

/-- Whether a marker has a visible part on a line. -/
def holdsMarker (line : List (Char × Bool)) : Bool := line.any fun x => x.2 && !isBlank x.1

def survivingWords (line : List (Char × Bool)) : List (List Char) :=
  if holdsMarker line then [] else keptWords (line.map Prod.fst)

/-- Where a line has a line break within it, only white space follows. -/
def EndsAtBreak (line : List Char) : Prop :=
  ∀ c ∈ line.dropWhile fun c => !isLineBreak c, isBlank c = true

instance (line : List Char) : Decidable (EndsAtBreak line) :=
  decidable_of_iff ((line.dropWhile fun c => !isLineBreak c).all isBlank = true) List.all_eq_true

section Lines

variable {line rest : List (Char × Bool)} {start before flag : Bool} {c : Char} {cs : List Char}

theorem unflagged_append (xs ys : List (Char × Bool)) :
    unflagged (xs ++ ys) = unflagged xs ++ unflagged ys := by
  rw [unflagged, List.filter_append, List.map_append]
  rfl

theorem mem_unflagged : c ∈ unflagged line ↔ (c, false) ∈ line := by
  simp [unflagged]

theorem EndsAtBreak.blank (h : EndsAtBreak (c :: cs)) (breaks : isLineBreak c = true) :
    ∀ d ∈ c :: cs, isBlank d = true := by
  unfold EndsAtBreak at h
  rwa [List.dropWhile_cons_of_neg (by simp [breaks])] at h

theorem EndsAtBreak.tail (h : EndsAtBreak (c :: cs)) (within : isLineBreak c = false) :
    EndsAtBreak cs := by
  unfold EndsAtBreak at h
  rwa [List.dropWhile_cons_of_pos (by simp [within])] at h

theorem blank_of_swept (swept : Swept start true line) (ends : EndsAtBreak (line.map Prod.fst)) :
    ∀ d ∈ unflagged line, isBlank d = true := by
  induction line generalizing start with
  | nil => simp [unflagged]
  | cons x rest ih =>
    intro d hd
    cases swept with
    | @cons _ _ flag c _ opens closes tail =>
      rw [mem_unflagged] at hd
      cases breaks : isLineBreak c with
      | true => exact ends.blank breaks d (List.mem_map.2 ⟨_, hd, rfl⟩)
      | false =>
        cases flag with
        | true =>
          have later : (d, false) ∈ rest := by simpa using hd
          exact ih tail (ends.tail breaks) d (mem_unflagged.2 later)
        | false =>
          rw [closes rfl rfl] at breaks
          cases breaks

theorem free_of_swept (swept : Swept false false line) (ends : EndsAtBreak (line.map Prod.fst)) :
    ∃ front back, line = front ++ back ∧ (∀ x ∈ front, x.2 = false) ∧
      ∀ x ∈ back, isBlank x.1 = true := by
  induction line with
  | nil => exact ⟨[], [], rfl, by simp, by simp⟩
  | cons x rest ih =>
    cases swept with
    | @cons _ _ flag c _ opens closes tail =>
      cases breaks : isLineBreak c with
      | true =>
        refine ⟨[], _, rfl, by simp, fun x hx => ?_⟩
        exact ends.blank breaks x.1 (List.mem_map.2 ⟨x, hx, rfl⟩)
      | false =>
        have none : flag = false := by
          cases flag with
          | false => rfl
          | true => simpa using opens rfl
        subst none
        rw [breaks] at tail
        obtain ⟨front, back, rfl, free, blank⟩ := ih tail (ends.tail breaks)
        exact ⟨(c, false) :: front, back, rfl, by simpa using free, blank⟩

theorem blank_or_free (swept : Swept true before line) (ends : EndsAtBreak (line.map Prod.fst)) :
    (∀ d ∈ unflagged line, isBlank d = true) ∨ before = false ∧
      ∃ front back, line = front ++ back ∧ (∀ x ∈ front, x.2 = false) ∧
        ∀ x ∈ back, isBlank x.1 = true := by
  cases before with
  | true => exact .inl (blank_of_swept swept ends)
  | false =>
    cases swept with
    | nil => exact .inl (by simp [unflagged])
    | @cons _ _ flag c rest opens closes tail =>
      cases breaks : isLineBreak c with
      | true =>
        refine .inl fun d hd => ends.blank breaks d ?_
        exact List.mem_map.2 ⟨_, mem_unflagged.1 hd, rfl⟩
      | false =>
        cases flag with
        | true =>
          refine .inl fun d hd => blank_of_swept tail (ends.tail breaks) d ?_
          rw [mem_unflagged] at hd ⊢
          simpa using hd
        | false =>
          rw [breaks] at tail
          obtain ⟨front, back, rfl, free, blank⟩ := free_of_swept tail (ends.tail breaks)
          exact .inr ⟨rfl, (c, false) :: front, back, rfl, by simpa using free, blank⟩

theorem keptWords_unflagged (swept : Swept true before line)
    (ends : EndsAtBreak (line.map Prod.fst)) (pending : List Char)
    (own : before = false → pending = []) :
    keptWords (pending ++ unflagged line) = keptWords pending ++ survivingWords line := by
  rcases blank_or_free swept ends with blank | ⟨first, front, back, rfl, free, blank⟩
  · have none : survivingWords line = [] := by
      unfold survivingWords
      split
      · rfl
      · rename_i hidden
        refine keptWords_of_blank fun c hc => ?_
        obtain ⟨⟨c, flag⟩, hx, rfl⟩ := List.mem_map.1 hc
        cases flag with
        | false => exact blank c (mem_unflagged.2 hx)
        | true =>
          have shown : holdsMarker line = false := by simpa using hidden
          simpa using List.any_eq_false.1 shown (c, true) hx
    rw [keptWords_append pending blank, none, List.append_nil]
  · have hidden : holdsMarker (front ++ back) = false := by
      simp only [holdsMarker, List.any_append, Bool.or_eq_false_iff, List.any_eq_false]
      exact ⟨fun x hx => by simp [free x hx], fun x hx => by simp [blank x hx]⟩
    have kept : unflagged front = front.map Prod.fst := by
      rw [unflagged, List.filter_eq_self.2]
      exact fun x hx => by simp [free x hx]
    have left : ∀ d ∈ unflagged back, isBlank d = true := fun d hd =>
      blank (d, false) (mem_unflagged.1 hd)
    have behind : ∀ d ∈ back.map Prod.fst, isBlank d = true := List.forall_mem_map.2 blank
    rw [own first, List.nil_append, unflagged_append, keptWords_append _ left, kept,
      survivingWords, hidden, List.map_append, keptWords_append _ behind]
    rfl

end Lines

/-- A statement about a text with flags holds if it holds of a line and with a line put in front. -/
theorem flagged_induction {motive : List (Char × Bool) → Prop}
    (last : ∀ line, (∀ x ∈ line, x.1 ≠ '\n') → motive line)
    (more : ∀ line flag rest, (∀ x ∈ line, x.1 ≠ '\n') → motive rest →
      motive (line ++ ('\n', flag) :: rest)) (xs : List (Char × Bool)) : motive xs := by
  have inLine : ∀ front : List (Char × Bool), (∀ x ∈ front, x.1 ≠ '\n') →
      motive (front ++ xs) := by
    induction xs with
    | nil => exact fun front h => last _ (by simpa using h)
    | cons x xs ih =>
      intro front h
      by_cases breaks : x.1 = '\n'
      · have rest := ih [] (by simp)
        obtain ⟨c, flag⟩ := x
        cases breaks
        exact more front flag xs h rest
      · have longer := ih (front ++ [x])
          (List.forall_mem_append.2 ⟨h, List.forall_mem_singleton.2 breaks⟩)
        simpa using longer
  exact inLine [] (by simp)

section Flagged

variable {line : List (Char × Bool)} (h : ∀ x ∈ line, x.1 ≠ '\n')
include h

theorem flaggedLines_line : flaggedLines line = [line] :=
  List.splitOnP_eq_singleton fun x hx => by simpa using h x hx

theorem flaggedLines_append (flag : Bool) (rest : List (Char × Bool)) :
    flaggedLines (line ++ ('\n', flag) :: rest) = line :: flaggedLines rest :=
  List.splitOnP_append_cons_of_forall_mem (fun x hx => by simpa using h x hx) _ (by simp) _

theorem notMem_unflagged : '\n' ∉ unflagged line := fun hc =>
  h _ (mem_unflagged.1 hc) rfl

theorem notMem_map : '\n' ∉ line.map Prod.fst := by
  rintro hc
  obtain ⟨x, hx, breaks⟩ := List.mem_map.1 hc
  exact h x hx breaks

end Flagged

theorem map_flaggedLines (xs : List (Char × Bool)) :
    (flaggedLines xs).map (List.map Prod.fst) = splitLines (xs.map Prod.fst) := by
  induction xs using flagged_induction with
  | last line h =>
    rw [flaggedLines_line h, splitLines_eq, List.splitOnP_eq_singleton]
    · rfl
    · exact fun c hc => by simpa using ne_of_mem_of_not_mem hc (notMem_map h)
  | more line flag rest h ih =>
    rw [flaggedLines_append h, List.map_cons, ih, List.map_append, List.map_cons, splitLines_eq,
      splitLines_eq, List.splitOnP_append_cons_of_forall_mem]
    · exact fun c hc => by simpa using ne_of_mem_of_not_mem hc (notMem_map h)
    · rfl

/-- A marker may take a line break along, so that what is left of one line (`pending`) runs into the
next; but then only white space is left of the next. -/
theorem explained_unflagged {xs : List (Char × Bool)} {before : Bool} (swept : Swept true before xs)
    (ends : ∀ line ∈ flaggedLines xs, EndsAtBreak (line.map Prod.fst)) {pending : List Char}
    (own : before = false → pending = []) (hp : '\n' ∉ pending) :
    explained (pending ++ unflagged xs) =
      keptWords pending ++ (flaggedLines xs).flatMap survivingWords := by
  induction xs using flagged_induction generalizing before pending with
  | last line h =>
    rw [flaggedLines_line h] at ends ⊢
    have whole : '\n' ∉ pending ++ unflagged line := by
      simpa using ⟨hp, notMem_unflagged h⟩
    rw [explained_line whole, keptWords_unflagged swept (ends line (by simp)) pending own,
      List.flatMap_singleton]
  | more line flag rest h ih =>
    rw [flaggedLines_append h] at ends ⊢
    obtain ⟨first, later⟩ := List.forall_mem_cons.1 ends
    have whole : '\n' ∉ pending ++ unflagged line := by
      simpa using ⟨hp, notMem_unflagged h⟩
    have kept := keptWords_unflagged swept.of_append first pending own
    have tail : Swept true flag rest := swept.of_append_cons
    rw [List.flatMap_cons, ← List.append_assoc, ← kept, unflagged_append, ← List.append_assoc]
    cases flag with
    | true => exact ih tail later (fun h => by cases h) whole
    | false =>
      have rest' := ih tail later (fun _ => rfl) (List.not_mem_nil (a := '\n'))
      have more : unflagged (('\n', false) :: rest) = '\n' :: unflagged rest := rfl
      rw [more, explained_append whole, ← List.nil_append (unflagged rest), rest']
      rfl

theorem survivingWords_eq_iff (line : List (Char × Bool)) :
    survivingWords line = keptWords (line.map Prod.fst) ↔
      (holdsMarker line = true → announces (line.map Prod.fst) = true) := by
  unfold survivingWords
  split
  · rename_i holds
    have some : words (line.map Prod.fst) ≠ [] := by
      obtain ⟨x, hx, visible⟩ := List.any_eq_true.1 holds
      rw [Ne, Text.words_eq_nil_iff]
      intro blank
      have := blank x.1 (List.mem_map.2 ⟨x, hx, rfl⟩)
      simp [this] at visible
    unfold keptWords
    split
    · rename_i announced
      simp [announced]
    · rename_i silent
      simp [holds, silent, some.symm]
  · rename_i holds
    simp [holds]

theorem survivingWords_sublist (line : List (Char × Bool)) :
    (survivingWords line).Sublist (keptWords (line.map Prod.fst)) := by
  unfold survivingWords
  split
  · exact List.nil_sublist _
  · exact List.Sublist.refl _

theorem flatMap_survivingWords_eq_iff (lines : List (List (Char × Bool))) :
    lines.flatMap survivingWords = lines.flatMap (fun line => keptWords (line.map Prod.fst)) ↔
      ∀ line ∈ lines, survivingWords line = keptWords (line.map Prod.fst) := by
  refine ⟨fun same => ?_, List.flatMap_congr⟩
  induction lines with
  | nil => simp
  | cons line lines ih =>
    rw [List.flatMap_cons, List.flatMap_cons] at same
    have total := congrArg List.length same
    rw [List.length_append, List.length_append] at total
    have first := (survivingWords_sublist line).length_le
    have later := (List.Sublist.flatMap_right lines fun line _ =>
      survivingWords_sublist line).length_le
    obtain ⟨own, rest⟩ := List.append_inj same (by omega)
    exact List.forall_mem_cons.2 ⟨own, ih rest⟩

/-- The explanation of an answer whose line breaks end its lines is that of the answer without its
markers exactly if each line that a marker has a visible part on announces one. The markers are those
whose values are read. -/
theorem explanation_unmarked_iff (text : String)
    (ends : ∀ line ∈ splitLines text.toList, EndsAtBreak line) :
    (last? outcomeMarker? text =
        ((walk outcomeMarker? 0 true text.toList).filterMap Prod.snd).getLast? ∧
      last? confidenceMarker? text =
        ((walk confidenceMarker? 0 true text.toList).filterMap Prod.snd).getLast?) ∧
    ((∀ n, explanation (unmarked text) n = explanation text n) ↔
      ∀ line ∈ flaggedLines (marked text.toList), holdsMarker line = true →
        announces (line.map Prod.fst) = true) := by
  refine ⟨⟨last?_eq_walk text, last?_eq_walk text⟩, ?_⟩
  have texts := map_flaggedLines (marked text.toList)
  rw [Response.map_fst_marked] at texts
  have without : (unmarked text).toList = [] ++ unflagged (marked text.toList) :=
    String.toList_ofList
  have whole : explained text.toList =
      (flaggedLines (marked text.toList)).flatMap fun line => keptWords (line.map Prod.fst) := by
    rw [explained, ← texts, List.flatMap_map]
  have tidy : ∀ line ∈ flaggedLines (marked text.toList), EndsAtBreak (line.map Prod.fst) :=
    fun line hl => ends _ (texts ▸ List.mem_map.2 ⟨line, hl, rfl⟩)
  rw [explanation_eq_iff, without, whole, explained_unflagged (Response.swept_marked _) tidy
    (fun _ => rfl) (List.not_mem_nil)]
  show _ ++ _ = _ ↔ _
  rw [keptWords_of_blank (by simp), List.nil_append, flatMap_survivingWords_eq_iff]
  exact forall₂_congr fun line _ => survivingWords_eq_iff line

def windowsAnswer : String := "The salary is fine [1].\r\nOUTCOME: eligible\r\nCONFIDENCE: 0.9"

theorem explanation_unmarked_windows :
    (∀ line ∈ splitLines windowsAnswer.toList, EndsAtBreak line) ∧
      ∀ n, explanation (unmarked windowsAnswer) n = explanation windowsAnswer n :=
  have ends : ∀ line ∈ splitLines windowsAnswer.toList, EndsAtBreak line := by decide +kernel
  ⟨ends, (explanation_unmarked_iff windowsAnswer ends).2.2 (by decide +kernel)⟩

/-- A label on the line after its keyword is read and stays in the explanation; a marker behind a
carriage return is read and stays, or takes the text of its line with it. -/
theorem explanation_keeps_marker :
    (¬∀ text n, explanation (unmarked text) n = explanation text n) ∧
    (Response.conclusion "Fine [1].\nOUTCOME:\neligible" = some (.outcome .eligible) ∧
      unmarked "Fine [1].\nOUTCOME:\neligible" = "Fine [1].\n" ∧
      explanation "Fine [1].\nOUTCOME:\neligible" = .ofString "Fine [1]. eligible") ∧
    (unmarked "Fine.\rOUTCOME: eligible" = "Fine.\r" ∧
      explanation "Fine.\rOUTCOME: eligible" = .ofString "Fine. OUTCOME: eligible") ∧
    unmarked "OUTCOME: eligible\rFine." = "\rFine." ∧
      explanation "OUTCOME: eligible\rFine." = .ofString "" := by
  refine ⟨fun same => ?_, by decide +kernel⟩
  exact absurd (same "Fine [1].\nOUTCOME:\neligible" explanationLength) (by decide +kernel)

end VisaEligibility.Summary
