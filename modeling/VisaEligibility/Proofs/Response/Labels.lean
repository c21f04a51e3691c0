import Mathlib.Data.List.TakeWhile
import VisaEligibility.Response.Verdict
/-!
The labels of outcome markers. An answer is read as an outcome only if a line of it starts a marker
whose label is listed, as it stands or with underscores for its spaces; besides the listed labels
only the two reserved ones count as an answer.
-/
set_option autoImplicit false

namespace VisaEligibility.Response

open Text (isBlank isLineBreak)

def Fill (cs : List Char) : Prop :=
  ∃ front stars back, cs = front ++ stars ++ back ∧ (∀ c ∈ front ++ back, isBlank c = true) ∧
    ∀ c ∈ stars, c = '*'

def Closing (cs : List Char) : Prop :=
  ∃ fill stop back, cs = fill ++ stop ++ back ∧ Fill fill ∧ (stop = [] ∨ stop = ['.']) ∧
    ∀ c ∈ back, isBlank c = true

def Written (label written : List Char) : Prop :=
  ∃ indent word gap pad closing, written = indent ++ word ++ gap ++ ':' :: pad ++ label ++ closing ∧
    Fill indent ∧ word.map Char.toLower = outcomeKeyword ∧ Fill gap ∧ Fill pad ∧
    label ≠ [] ∧ (∀ c ∈ label, isLabelChar c = true) ∧ Closing closing

def Labels (text label : List Char) : Prop :=
  ∃ front written rest, text = front ++ written ++ rest ∧ Written label written ∧
    (∀ c, front.getLast? = some c → isLineBreak c = true) ∧
    ∀ c, rest.head? = some c → isLineBreak c = true

theorem mem_takeWhile {p : Char → Bool} {cs : List Char} :
    ∀ c ∈ cs.takeWhile p, p c = true := fun _ => List.mem_takeWhile_imp

theorem exists_start (cs : List Char) : ∃ start, cs = start ++ dropStars (dropBlanks cs) ∧
    ∀ more, (∀ c ∈ more, isBlank c = true) → Fill (start ++ more) := by
  refine ⟨cs.takeWhile isBlank ++ (dropBlanks cs).takeWhile (· == '*'), ?_, fun more blanks => ?_⟩
  · simp only [dropBlanks, dropStars, List.append_assoc, List.takeWhile_append_dropWhile]
  · refine ⟨_, _, more, rfl, List.forall_mem_append.2 ⟨mem_takeWhile, blanks⟩, fun c hc => ?_⟩
    exact eq_of_beq (mem_takeWhile c hc)

theorem fill_of_blanks {cs : List Char} (blanks : ∀ c ∈ cs, isBlank c = true) : Fill cs :=
  ⟨cs, [], [], by simp, by simpa using blanks, by simp⟩

theorem exists_fill (cs : List Char) : ∃ fill, Fill fill ∧ cs = fill ++ dropFill cs := by
  obtain ⟨start, split, fills⟩ := exists_start cs
  refine ⟨start ++ (dropStars (dropBlanks cs)).takeWhile isBlank, fills _ mem_takeWhile, ?_⟩
  rw [List.append_assoc, dropFill]
  have rest : (dropStars (dropBlanks cs)).takeWhile isBlank ++
      dropBlanks (dropStars (dropBlanks cs)) = dropStars (dropBlanks cs) :=
    List.takeWhile_append_dropWhile
  rw [rest]
  exact split

theorem exists_word {keyword cs rest : List Char} (hr : dropKeyword? keyword cs = some rest) :
    ∃ word, cs = word ++ rest ∧ word.map Char.toLower = keyword.map Char.toLower := by
  induction keyword generalizing cs with
  | nil => exact ⟨[], Option.some.inj hr, rfl⟩
  | cons k keyword ih =>
    cases cs with
    | nil => cases hr
    | cons c cs =>
      by_cases same : k.toLower = c.toLower
      · rw [dropKeyword?, if_pos same] at hr
        obtain ⟨word, rfl, spelt⟩ := ih hr
        exact ⟨c :: word, rfl, by rw [List.map_cons, List.map_cons, spelt, same]⟩
      · rw [dropKeyword?, if_neg same] at hr
        cases hr

theorem exists_colon {keyword cs rest : List Char} (hr : afterColon? keyword cs = some rest) :
    ∃ indent word gap, cs = indent ++ word ++ gap ++ ':' :: rest ∧ Fill indent ∧
      word.map Char.toLower = keyword.map Char.toLower ∧ Fill gap := by
  obtain ⟨spelt, hs, hr⟩ := Option.bind_eq_some_iff.1 hr
  obtain ⟨indent, hi, whole⟩ := exists_fill cs
  obtain ⟨word, split, hw⟩ := exists_word hs
  obtain ⟨gap, hg, after⟩ := exists_fill spelt
  split at hr
  · rename_i colon
    cases hr
    rw [colon] at after
    refine ⟨indent, word, gap, ?_, hi, hw, hg⟩
    rw [whole, split, after]
    simp only [List.append_assoc]
  · cases hr

theorem exists_lineEnd {cs rest : List Char} (hr : lineEnd? cs = some rest) :
    ∃ back, cs = back ++ rest ∧ (∀ c ∈ back, isBlank c = true) ∧
      ∀ c, rest.head? = some c → isLineBreak c = true := by
  induction cs generalizing rest with
  | nil =>
    cases hr
    exact ⟨[], rfl, by simp, by simp⟩
  | cons c cs ih =>
    rw [lineEnd?] at hr
    split at hr
    · rename_i blank
      cases later : lineEnd? cs with
      | some rest' =>
        rw [later] at hr
        cases hr
        obtain ⟨back, rfl, blanks, ends⟩ := ih later
        exact ⟨c :: back, rfl, List.forall_mem_cons.2 ⟨blank, blanks⟩, ends⟩
      | none =>
        rw [later] at hr
        simp only [Option.orElse_none] at hr
        split at hr
        · rename_i breaks
          cases hr
          refine ⟨[], rfl, by simp, ?_⟩
          rintro d ⟨⟩
          exact breaks
        · cases hr
    · cases hr

theorem exists_closing {cs rest : List Char} (hr : close? cs = some rest) :
    ∃ closing, cs = closing ++ rest ∧ Closing closing ∧
      ∀ c, rest.head? = some c → isLineBreak c = true := by
  obtain ⟨start, split, fills⟩ := exists_start cs
  obtain ⟨gap, hg, after⟩ := exists_fill cs
  have ways : (∃ stopped, dropFill cs = '.' :: stopped ∧ lineEnd? stopped = some rest) ∨
      lineEnd? (dropStars (dropBlanks cs)) = some rest ∨ lineEnd? cs = some rest := by
    simp only [close?, Option.orElse_eq_or, Option.or_eq_some_iff] at hr
    rcases hr with (hr | ⟨-, hr⟩) | ⟨-, hr⟩
    · split at hr
      · rename_i stopped stop
        exact .inl ⟨stopped, stop, hr⟩
      · cases hr
    · exact .inr (.inl hr)
    · exact .inr (.inr hr)
  rcases ways with ⟨stopped, stop, ended⟩ | ended | ended
  · obtain ⟨back, rfl, blanks, ends⟩ := exists_lineEnd ended
    refine ⟨gap ++ ['.'] ++ back, ?_, ⟨gap, _, back, rfl, hg, .inr rfl, blanks⟩, ends⟩
    rw [after, stop]
    simp
  · obtain ⟨back, stars, blanks, ends⟩ := exists_lineEnd ended
    have closing : Closing (start ++ back) :=
      ⟨start ++ back, [], [], by simp, fills back blanks, .inl rfl, by simp⟩
    refine ⟨start ++ back, ?_, closing, ends⟩
    rw [split, stars, List.append_assoc]
  · obtain ⟨back, rfl, blanks, ends⟩ := exists_lineEnd ended
    exact ⟨back, rfl, ⟨back, [], [], by simp, fill_of_blanks blanks, .inl rfl, by simp⟩, ends⟩

theorem exists_label {cs : List Char} {m : Marker (List Char)} (hm : shortestLabel? cs = some m) :
    ∃ closing, cs = m.value ++ closing ++ m.rest ∧ m.value ≠ [] ∧
      (∀ c ∈ m.value, isLabelChar c = true) ∧ Closing closing ∧
      ∀ c, m.rest.head? = some c → isLineBreak c = true := by
  induction cs generalizing m with
  | nil => cases hm
  | cons c cs ih =>
    rw [shortestLabel?] at hm
    split at hm
    · rename_i labelled
      split at hm
      · rename_i rest closed
        cases hm
        obtain ⟨closing, rfl, hc, ends⟩ := exists_closing closed
        exact ⟨closing, rfl, by simp, by simp [labelled], hc, ends⟩
      · obtain ⟨m', hm', rfl⟩ := Option.map_eq_some_iff.1 hm
        obtain ⟨closing, split, -, letters, hc, ends⟩ := ih hm'
        refine ⟨closing, ?_, by simp, List.forall_mem_cons.2 ⟨labelled, letters⟩, hc, ends⟩
        exact congrArg (c :: ·) split
    · cases hm

theorem exists_pad {cs place : List Char} (hp : place ∈ places cs) :
    ∃ pad, cs = pad ++ place ∧ ∀ c ∈ pad, isBlank c = true := by
  induction cs with
  | nil =>
    cases List.mem_singleton.1 hp
    exact ⟨[], rfl, by simp⟩
  | cons c cs ih =>
    rw [places] at hp
    split at hp
    · rename_i blank
      rcases List.mem_append.1 hp with hp | hp
      · obtain ⟨pad, rfl, blanks⟩ := ih hp
        exact ⟨c :: pad, rfl, List.forall_mem_cons.2 ⟨blank, blanks⟩⟩
      · cases List.mem_singleton.1 hp
        exact ⟨[], rfl, by simp⟩
    · cases List.mem_singleton.1 hp
      exact ⟨[], rfl, by simp⟩

theorem exists_written {cs : List Char} {m : Marker (List Char)} (hm : outcomeMarker? cs = some m) :
    ∃ written, cs = written ++ m.rest ∧ Written m.value written ∧
      ∀ c, m.rest.head? = some c → isLineBreak c = true := by
  obtain ⟨rest, colon, hl⟩ := Option.bind_eq_some_iff.1 hm
  obtain ⟨indent, word, gap, rfl, hi, hw, hg⟩ := exists_colon colon
  obtain ⟨place, hp, hl⟩ := List.exists_of_findSome?_eq_some hl
  obtain ⟨closing, rfl, nonempty, letters, hc, ends⟩ := exists_label hl
  have padded : ∃ pad, rest = pad ++ (m.value ++ closing ++ m.rest) ∧ Fill pad := by
    rcases List.mem_append.1 hp with hp | hp
    · obtain ⟨start, split, fills⟩ := exists_start rest
      obtain ⟨pad, stars, blanks⟩ := exists_pad hp
      refine ⟨start ++ pad, ?_, fills pad blanks⟩
      rw [List.append_assoc, ← stars]
      exact split
    · obtain ⟨pad, split, blanks⟩ := exists_pad hp
      exact ⟨pad, split, fill_of_blanks blanks⟩
  obtain ⟨pad, rfl, hpad⟩ := padded
  refine ⟨_, ?_, ⟨indent, word, gap, pad, closing, rfl, hi, hw, hg, hpad, nonempty, letters, hc⟩,
    ends⟩
  simp only [List.append_assoc, List.cons_append]

/-- Every marker read starts a line. -/
theorem exists_marker {α : Type} {marker? : List Char → Option (Marker α)} {covered : Nat}
    {lineStart : Bool} {cs : List Char} {value : α}
    (hv : value ∈ scan marker? covered lineStart cs) :
    ∃ front rest m, cs = front ++ rest ∧ marker? rest = some m ∧ m.value = value ∧
      front.getLast?.elim lineStart isLineBreak = true := by
  induction cs generalizing covered lineStart with
  | nil => cases hv
  | cons c cs ih =>
    have later {covered : Nat} (hv : value ∈ scan marker? covered (isLineBreak c) cs) :
        ∃ front rest m, c :: cs = front ++ rest ∧ marker? rest = some m ∧ m.value = value ∧
          front.getLast?.elim lineStart isLineBreak = true := by
      obtain ⟨front, rest, m, rfl, hm, same, starts⟩ := ih hv
      refine ⟨c :: front, rest, m, rfl, hm, same, ?_⟩
      rw [List.getLast?_cons]
      cases last : front.getLast? with
      | none => simpa [last] using starts
      | some d => simpa [last] using starts
    cases covered with
    | succ covered => exact later hv
    | zero =>
      rw [scan] at hv
      split at hv
      · rename_i m hm
        split at hm
        · rename_i starts
          rcases List.mem_cons.1 hv with rfl | hv
          · exact ⟨[], c :: cs, m, rfl, hm, rfl, starts⟩
          · exact later hv
        · cases hm
      · exact later hv

theorem labels_of_last? {text : String} {label : List Char}
    (hl : last? outcomeMarker? text = some label) : Labels text.toList label := by
  obtain ⟨front, cs, m, split, hm, rfl, starts⟩ := exists_marker (List.mem_of_getLast? hl)
  obtain ⟨written, rfl, hw, ends⟩ := exists_written hm
  refine ⟨front, written, m.rest, by rw [split, List.append_assoc], hw, fun c hc => ?_, ends⟩
  rw [hc] at starts
  exact starts

theorem get?_synonyms {key : String} {o : Outcome} :
    Entries.get? synonyms key = some o ↔ (key, o) ∈ synonyms := by
  have listed : ∀ e ∈ synonyms, Entries.get? synonyms e.1 = some e.2 := by decide
  constructor
  · intro found
    obtain ⟨e, he, rfl⟩ := Option.map_eq_some_iff.1 found
    obtain rfl : e.1 = key := by simpa using List.find?_some he
    exact List.mem_of_find?_eq_some he
  · exact listed (key, o)

theorem named?_eq_some {key : String} {c : Conclusion} : named? key = some c ↔
    (∃ o, (key, o) ∈ synonyms ∧ c = .outcome o) ∨
      ∃ l : ReservedLabel, key = l.label ∧ c = .reserved l := by
  have reserved (l : ReservedLabel) : named? l.label = some (.reserved l) := by
    cases l <;> decide
  constructor
  · intro named
    simp only [named?, Option.orElse_eq_or, Option.or_eq_some_iff, Option.map_eq_some_iff,
      get?_synonyms] at named
    rcases named with ⟨o, listed, rfl⟩ | ⟨-, l, found, rfl⟩
    · exact .inl ⟨o, listed, rfl⟩
    · have same : l.label = key := by simpa using List.find?_some found
      exact .inr ⟨l, same.symm, rfl⟩
  · rintro (⟨o, listed, rfl⟩ | ⟨l, rfl, rfl⟩)
    · rw [named?, get?_synonyms.2 listed]
      rfl
    · exact reserved l

theorem named?_underscored {cs : List Char} {c : Conclusion}
    (hc : named? (String.ofList cs) = some c) :
    named? (String.ofList (underscored cs)) = some c := by
  have listed : ∀ e ∈ synonyms,
      named? (String.ofList (underscored e.1.toList)) = some (.outcome e.2) := by decide
  have reserved : ∀ l ∈ ReservedLabel.all,
      named? (String.ofList (underscored l.label.toList)) = some (.reserved l) := by decide
  rcases named?_eq_some.1 hc with ⟨o, he, rfl⟩ | ⟨l, hl, rfl⟩
  · have := listed _ he
    rwa [String.toList_ofList] at this
  · have := reserved l (by cases l <;> decide)
    rwa [← hl, String.toList_ofList] at this

theorem conclusionOf_eq (label : List Char) :
    conclusionOf label = named? (String.ofList (underscored (normalLabel label))) := by
  unfold conclusionOf
  dsimp only
  split
  · rename_i empty
    rw [List.isEmpty_iff.1 empty]
    decide
  · cases named : named? (String.ofList (normalLabel label)) with
    | none => rfl
    | some c => exact (named?_underscored named).symm

/-- A label as it stands and with underscores for its spaces, in lower case and with single
spaces. -/
def spellings (label : List Char) : List String :=
  [String.ofList (normalLabel label), String.ofList (underscored (normalLabel label))]

def IsListed (o : Outcome) (label : List Char) : Prop :=
  ∃ key ∈ spellings label, (key, o) ∈ synonyms

theorem conclusionOf_eq_some {label : List Char} {c : Conclusion} :
    conclusionOf label = some c ↔ ∃ key ∈ spellings label, named? key = some c := by
  rw [conclusionOf_eq]
  constructor
  · intro named
    exact ⟨_, by simp [spellings], named⟩
  · rintro ⟨key, hk, named⟩
    rcases List.mem_cons.1 hk with rfl | hk
    · exact named?_underscored named
    · rwa [List.mem_singleton.1 hk] at named

theorem conclusionOf_eq_outcome {label : List Char} {o : Outcome} :
    conclusionOf label = some (.outcome o) ↔ IsListed o label := by
  simp [conclusionOf_eq_some, named?_eq_some, IsListed]

theorem conclusionOf_eq_reserved {label : List Char} {l : ReservedLabel} :
    conclusionOf label = some (.reserved l) ↔ l.label ∈ spellings label := by
  simp [conclusionOf_eq_some, named?_eq_some]

/-- An answer is read as an outcome through a listed label of its last marker, and only so. -/
theorem conclusion_eq_outcome {text : String} {o : Outcome} :
    conclusion text = some (.outcome o) ↔
      ∃ label, last? outcomeMarker? text = some label ∧ IsListed o label := by
  simp only [conclusion, Option.bind_eq_some_iff, conclusionOf_eq_outcome]

theorem conclusion_eq_reserved {text : String} {l : ReservedLabel} :
    conclusion text = some (.reserved l) ↔
      ∃ label, last? outcomeMarker? text = some label ∧ l.label ∈ spellings label := by
  simp only [conclusion, Option.bind_eq_some_iff, conclusionOf_eq_reserved]

end VisaEligibility.Response
