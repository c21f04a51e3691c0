import Mathlib.Data.List.TakeDrop
import Mathlib.Data.List.TakeWhile
import VisaEligibility.Response.Marker
/-!
The last marker of a text. A marker on a line of its own counts whatever stands before it: what
starts earlier ends before that line or runs into the very same marker, since the white space and the
stars of a marker may cross lines but its words, its colon and its value may not.
-/
set_option autoImplicit false

namespace VisaEligibility

theorem isDigit_of_isAlpha {c : Char} (h : c.isAlpha = true) : c.isDigit = false := by
  cases hd : c.isDigit with
  | false => rfl
  | true =>
    have letter := Text.isAlpha_range h
    have digit := Text.isDigit_range hd
    omega

namespace Response

open Text (isBlank isLineBreak)

theorem eq_some_of_orElse {α : Type} {o : Option α} {f : Unit → Option α} {a : α}
    (h : o.orElse f = some a) : o = some a ∨ f () = some a := by
  cases o with
  | none => exact .inr h
  | some b => exact .inl h

theorem suffix_of_notMem {c : Char} {cs front rest : List Char} (h : c :: cs <:+ front ++ rest)
    (apart : c ∉ front) : c :: cs <:+ rest := by
  induction front with
  | nil => exact h
  | cons f front ih =>
    obtain ⟨other, apart⟩ := not_or.1 (mt List.mem_cons.2 apart)
    rcases List.suffix_cons_iff.1 h with same | h
    · exact absurd (List.cons.inj same).1 other
    · exact ih h apart

theorem span_isDigit {cs front rest : List Char} (h : cs.span Char.isDigit = (front, rest)) :
    cs = front ++ rest ∧ '\n' ∉ front := by
  rw [List.span_eq_takeWhile_dropWhile] at h
  cases h
  refine ⟨List.takeWhile_append_dropWhile.symm, fun hc => ?_⟩
  cases List.mem_takeWhile_imp hc

theorem numeral?_spelled {cs numeral rest : List Char} (h : numeral? cs = some (numeral, rest)) :
    cs = numeral ++ rest ∧ '\n' ∉ numeral := by
  unfold numeral? at h
  split at h
  rename_i sign body hs
  have signed : cs = sign ++ body ∧ '\n' ∉ sign := by
    split at hs
    · cases hs
      simp
    · cases hs
      simp
  obtain ⟨rfl, unsigned⟩ := signed
  split at h
  · cases h
  · rename_i whole after _ hw
    obtain ⟨rfl, digits⟩ := span_isDigit hw
    split at h
    · cases h
      simp [unsigned, digits]
    · rename_i part left _ hp
      obtain ⟨rfl, digits'⟩ := span_isDigit hp
      cases h
      simp [unsigned, digits, digits']
  · rename_i whole left _ _ hw
    obtain ⟨rfl, digits⟩ := span_isDigit hw
    cases h
    simp [unsigned, digits]

/-- Where reading can have got to in a text with a line break before `tail`: no further than the
break, or right after it. -/
def UpTo (tail cs : List Char) : Prop := '\n' :: tail <:+ cs ∨ cs = tail

section

variable {k : Char} {ks cs : List Char}

theorem UpTo.tail {c : Char} (h : UpTo (k :: ks) (c :: cs)) (other : c ≠ k) :
    UpTo (k :: ks) cs := by
  rcases h with h | h
  · rcases List.suffix_cons_iff.1 h with same | h
    · exact .inr (List.cons.inj same).2.symm
    · exact .inl h
  · exact absurd (List.cons.inj h).1 other

theorem UpTo.ne_nil (h : UpTo (k :: ks) cs) : cs ≠ [] := by
  rintro rfl
  rcases h with h | h
  · cases List.suffix_nil.1 h
  · cases h

theorem UpTo.dropWhile {p : Char → Bool} (h : UpTo (k :: ks) cs) (hp : p k = false) :
    UpTo (k :: ks) (cs.dropWhile p) := by
  induction cs with
  | nil => exact h
  | cons c cs ih =>
    cases hc : p c with
    | false => rwa [List.dropWhile_cons_of_neg (by simp [hc])]
    | true =>
      rw [List.dropWhile_cons_of_pos hc]
      refine ih (h.tail ?_)
      rintro rfl
      cases hp.symm.trans hc

theorem dropKeyword?_before {keyword rest : List Char} (word : '\n' ∉ keyword.map Char.toLower)
    (h : '\n' :: k :: ks <:+ cs) (hr : dropKeyword? keyword cs = some rest) :
    '\n' :: k :: ks <:+ rest := by
  induction keyword generalizing cs with
  | nil => exact Option.some.inj hr ▸ h
  | cons l keyword ih =>
    obtain ⟨hl, word⟩ := not_or.1 (mt List.mem_cons.2 word)
    cases cs with
    | nil => cases hr
    | cons c cs =>
      by_cases same : l.toLower = c.toLower
      · rw [dropKeyword?, if_pos same] at hr
        refine ih word ?_ hr
        rcases List.suffix_cons_iff.1 h with first | h
        · obtain ⟨rfl, -⟩ := List.cons.inj first
          exact absurd same.symm hl
        · exact h
      · rw [dropKeyword?, if_neg same] at hr
        cases hr

variable (letter : k.isAlpha = true)

include letter

theorem ne_of_isBlank {c : Char} (blank : isBlank c = true) : c ≠ k := by
  rintro rfl
  cases (Text.isBlank_of_isAlpha letter).symm.trans blank

theorem UpTo.dropBlanks (h : UpTo (k :: ks) cs) : UpTo (k :: ks) (dropBlanks cs) :=
  h.dropWhile (Text.isBlank_of_isAlpha letter)

theorem UpTo.dropStars (h : UpTo (k :: ks) cs) : UpTo (k :: ks) (dropStars cs) := by
  refine h.dropWhile (beq_eq_false_iff_ne.2 ?_)
  rintro rfl
  cases letter

theorem UpTo.dropFill (h : UpTo (k :: ks) cs) : UpTo (k :: ks) (dropFill cs) :=
  ((h.dropBlanks letter).dropStars letter).dropBlanks letter

theorem dropFill_of_isAlpha : Response.dropFill (k :: ks) = k :: ks := by
  have star : k ≠ '*' := by
    rintro rfl
    cases letter
  simp [Response.dropFill, Response.dropBlanks, Response.dropStars, star,
    Text.isBlank_of_isAlpha letter]

theorem afterColon?_before {keyword : List Char} (word : '\n' ∉ keyword.map Char.toLower)
    (h : '\n' :: k :: ks <:+ cs) : afterColon? keyword cs = afterColon? keyword (k :: ks) ∨
      ∀ rest, afterColon? keyword cs = some rest → '\n' :: k :: ks <:+ rest := by
  rcases UpTo.dropFill letter (.inl h) with before | after
  · right
    intro rest hr
    obtain ⟨spelt, hs, hr⟩ := Option.bind_eq_some_iff.1 hr
    rcases UpTo.dropFill letter (.inl (dropKeyword?_before word before hs)) with before | after
    · split at hr
      · rename_i colon
        cases hr
        rw [colon] at before
        have apart : '\n' ∉ [':'] := by decide
        exact suffix_of_notMem before apart
      · cases hr
    · rw [after] at hr
      split at hr
      · rename_i colon
        cases (List.cons.inj colon).1
        cases letter
      · cases hr
  · left
    rw [afterColon?, after, afterColon?, dropFill_of_isAlpha letter]

theorem lineEnd?_before {rest : List Char} (h : UpTo (k :: ks) cs) (hr : lineEnd? cs = some rest) :
    '\n' :: k :: ks <:+ rest := by
  induction cs with
  | nil => exact absurd rfl h.ne_nil
  | cons c cs ih =>
    rw [lineEnd?] at hr
    split at hr
    · rename_i blank
      have other := ne_of_isBlank letter blank
      rcases eq_some_of_orElse hr with later | here
      · exact ih (h.tail other) later
      · split at here
        · cases here
          exact h.resolve_right fun same => other (List.cons.inj same).1
        · cases here
    · cases hr

theorem close?_before {rest : List Char} (h : UpTo (k :: ks) cs) (hr : close? cs = some rest) :
    '\n' :: k :: ks <:+ rest := by
  have stars := (h.dropBlanks letter).dropStars letter
  unfold close? at hr
  rcases eq_some_of_orElse hr with hr | hr
  · rcases eq_some_of_orElse hr with hr | hr
    · split at hr
      · rename_i stop hs
        refine lineEnd?_before letter (UpTo.tail (hs ▸ stars.dropBlanks letter) ?_) hr
        rintro rfl
        cases letter
      · cases hr
    · exact lineEnd?_before letter stars hr
  · exact lineEnd?_before letter h hr

theorem shortestLabel?_before {m : Marker (List Char)} (h : '\n' :: k :: ks <:+ cs)
    (hm : shortestLabel? cs = some m) : '\n' :: k :: ks <:+ m.rest := by
  induction cs generalizing m with
  | nil => cases hm
  | cons c cs ih =>
    rw [shortestLabel?] at hm
    split at hm
    · rename_i labelled
      have inner : '\n' :: k :: ks <:+ cs := by
        rcases List.suffix_cons_iff.1 h with first | h
        · obtain ⟨rfl, -⟩ := List.cons.inj first
          cases labelled
        · exact h
      split at hm
      · rename_i rest closed
        cases hm
        exact close?_before letter (.inl inner) closed
      · obtain ⟨m', hm', rfl⟩ := Option.map_eq_some_iff.1 hm
        change '\n' :: k :: ks <:+ m'.rest
        exact ih inner hm'
    · cases hm

theorem UpTo.of_mem_places (h : UpTo (k :: ks) cs) {place : List Char} (hp : place ∈ places cs) :
    UpTo (k :: ks) place := by
  induction cs with
  | nil => exact absurd rfl h.ne_nil
  | cons c cs ih =>
    rw [places] at hp
    split at hp
    · rename_i blank
      have other := ne_of_isBlank letter blank
      rcases List.mem_append.1 hp with hp | hp
      · exact ih (h.tail other) hp
      · exact List.mem_singleton.1 hp ▸ h
    · exact List.mem_singleton.1 hp ▸ h

theorem label?_before {m : Marker (List Char)} (unlabelled : shortestLabel? (k :: ks) = none)
    (h : '\n' :: k :: ks <:+ cs) (hm : label? cs = some m) : '\n' :: k :: ks <:+ m.rest := by
  obtain ⟨place, hp, hm⟩ := List.exists_of_findSome?_eq_some hm
  have reached : UpTo (k :: ks) place := by
    rcases List.mem_append.1 hp with hp | hp
    · exact UpTo.of_mem_places letter ((UpTo.dropBlanks letter (.inl h)).dropStars letter) hp
    · exact UpTo.of_mem_places letter (.inl h) hp
  rcases reached with before | after
  · exact shortestLabel?_before letter before hm
  · rw [after, unlabelled] at hm
    cases hm

theorem numeral?_of_isAlpha : numeral? (k :: ks) = none := by
  unfold numeral?
  split
  rename_i sign body hs
  split at hs
  · rename_i minus
    cases (List.cons.inj minus).1
    cases letter
  · cases hs
    rw [List.span_eq_takeWhile_dropWhile,
      List.takeWhile_cons_of_neg (by simp [isDigit_of_isAlpha letter])]

theorem share?_before {m : Marker Share} (h : '\n' :: k :: ks <:+ cs) (hm : share? cs = some m) :
    '\n' :: k :: ks <:+ m.rest := by
  obtain ⟨⟨numeral, rest⟩, hn, hm⟩ := Option.bind_eq_some_iff.1 hm
  have numbered : '\n' :: k :: ks <:+ rest := by
    rcases UpTo.dropFill letter (.inl h) with before | after
    · obtain ⟨spelled, apart⟩ := numeral?_spelled hn
      rw [spelled] at before
      exact suffix_of_notMem before apart
    · rw [after, numeral?_of_isAlpha letter] at hn
      cases hn
  dsimp only at hm
  split at hm
  · rename_i closed hc
    cases hm
    split at hc
    · rename_i rest' hp
      refine close?_before letter (UpTo.tail (hp ▸ UpTo.dropBlanks letter (.inl numbered)) ?_) hc
      rintro rfl
      cases letter
    · cases hc
  · obtain ⟨closed, hc, rfl⟩ := Option.map_eq_some_iff.1 hm
    exact close?_before letter (.inl numbered) hc

end

variable {α : Type}

section

variable {k : Char} {ks : List Char} {keyword : List Char} {value? : List Char → Option (Marker α)}
  {m : Marker α}

/-- A marker that starts before the line ends before it or is the one that starts the line, provided
that its value does not cross the line break. -/
theorem marker_before (letter : k.isAlpha = true) (word : '\n' ∉ keyword.map Char.toLower)
    (value : ∀ cs m, '\n' :: k :: ks <:+ cs → value? cs = some m → '\n' :: k :: ks <:+ m.rest)
    (own : (afterColon? keyword (k :: ks)).bind value? = some m) (front : List Char) (m' : Marker α)
    (hm' : (afterColon? keyword (front ++ '\n' :: k :: ks)).bind value? = some m') :
    m' = m ∨ '\n' :: k :: ks <:+ m'.rest := by
  rcases afterColon?_before letter word (List.suffix_append front _) with same | inFront
  · rw [same, own] at hm'
    exact .inl (Option.some.inj hm').symm
  · obtain ⟨rest, colon, hv⟩ := Option.bind_eq_some_iff.1 hm'
    exact .inr (value rest m' (inFront rest colon) hv)

end

variable {marker? : List Char → Option (Marker α)}

theorem scan_covered (front rest : List Char) (lineStart : Bool) :
    scan marker? front.length lineStart (front ++ rest) =
      scan marker? 0 (front.foldl (fun _ c => isLineBreak c) lineStart) rest := by
  induction front generalizing lineStart with
  | nil => rfl
  | cons c front ih => exact ih (isLineBreak c)

theorem scan_cons (marker? : List Char → Option (Marker α)) (lineStart : Bool) (c : Char) (cs : List Char) :
    (∃ m, marker? (c :: cs) = some m ∧ scan marker? 0 lineStart (c :: cs) =
      m.value :: scan marker? (cs.length - m.rest.length) (isLineBreak c) cs) ∨
    scan marker? 0 lineStart (c :: cs) = scan marker? 0 (isLineBreak c) cs := by
  cases lineStart with
  | false => exact .inr rfl
  | true =>
    cases hm : marker? (c :: cs) with
    | none => exact .inr (by simp [scan, hm])
    | some m => exact .inl ⟨m, rfl, by simp [scan, hm]⟩

theorem scan_of_no_break {cs : List Char} (h : cs.any isLineBreak = false) :
    scan marker? 0 false cs = [] := by
  induction cs with
  | nil => rfl
  | cons c cs ih =>
    obtain ⟨hc, hcs⟩ := Bool.or_eq_false_iff.1 h
    simp only [scan, hc]
    exact ih hcs

/-- A line that starts with a marker which is the last one, whatever text stands before the line. -/
structure EndsWith (marker? : List Char → Option (Marker α)) (line : List Char) (m : Marker α) :
    Prop where
  own : marker? line = some m
  covers : ∃ c cs, line = c :: cs ++ m.rest
  before : ∀ front m', marker? (front ++ '\n' :: line) = some m' →
    m' = m ∨ '\n' :: line <:+ m'.rest
  after : ∀ lineStart, scan marker? 0 lineStart m.rest = []

namespace EndsWith

variable {line : List Char} {m : Marker α}

theorem scan_after (h : EndsWith marker? line m) {front cs : List Char} (hc : cs = front ++ m.rest)
    (lineStart : Bool) : scan marker? (cs.length - m.rest.length) lineStart cs = [] := by
  have covered : cs.length - m.rest.length = front.length := by simp [hc]
  rw [covered, hc, scan_covered]
  exact h.after _

theorem scan_line (h : EndsWith marker? line m) : scan marker? 0 true line = [m.value] := by
  obtain ⟨c, cs, hc⟩ := h.covers
  have own := h.own
  rw [hc, List.cons_append] at own ⊢
  simp only [scan, if_true, own, h.scan_after rfl]

theorem getLast?_scan (h : EndsWith marker? line m) (front : List Char) (covered : Nat)
    (lineStart : Bool) (inFront : covered ≤ front.length) :
    (scan marker? covered lineStart (front ++ '\n' :: line)).getLast? = some m.value := by
  obtain ⟨l, ls, hl⟩ := h.covers
  induction front generalizing covered lineStart with
  | nil =>
    obtain rfl : covered = 0 := Nat.le_zero.1 inFront
    rcases scan_cons marker? lineStart '\n' line with ⟨m', hm', found⟩ | passed
    · rw [List.nil_append, found]
      rcases h.before [] m' hm' with rfl | before
      · rw [h.scan_after hl]
        rfl
      · have fresh : line.length - m'.rest.length = 0 := by
          have := before.length_le
          rw [List.length_cons] at this
          omega
        rw [fresh]
        exact congrArg (fun values => (m'.value :: values).getLast?) h.scan_line
    · rw [List.nil_append, passed]
      exact congrArg List.getLast? h.scan_line
  | cons c front ih =>
    cases covered with
    | succ covered => exact ih covered _ (Nat.le_of_succ_le_succ inFront)
    | zero =>
      rcases scan_cons marker? lineStart c (front ++ '\n' :: line) with
        ⟨m', hm', found⟩ | passed
      · rw [List.cons_append, found]
        rcases h.before (c :: front) m' hm' with rfl | before
        · have tail : front ++ '\n' :: line = (front ++ '\n' :: l :: ls) ++ m'.rest := by
            rw [hl]
            simp
          rw [h.scan_after tail]
          rfl
        · have inside : (front ++ '\n' :: line).length - m'.rest.length ≤ front.length := by
            have := before.length_le
            rw [List.length_append]
            omega
          rw [List.getLast?_cons, ih _ _ inside]
          rfl
      · rw [List.cons_append, passed]
        exact ih 0 _ (Nat.zero_le _)

theorem last?_eq (h : EndsWith marker? line m) {text : String} {front : List Char}
    (ht : text.toList = front ++ '\n' :: line) : last? marker? text = some m.value := by
  rw [last?, ht]
  exact h.getLast?_scan front 0 true (Nat.zero_le _)

end EndsWith

end Response
end VisaEligibility
