import Mathlib.Tactic.Linarith
import VisaEligibility.Proofs.Number.Sign
import VisaEligibility.Proofs.Response.Labels
/-!
The shares of confidence markers. A confidence is read only from a decimal numeral, or a percentage,
in a marker from the start of a line to the end of one; it is what the last such marker denotes,
between 0 and 1 up to the rounding of numbers.
-/
set_option autoImplicit false

namespace VisaEligibility

namespace Response

open Number Text

def reading (percent : Bool) (a : Rat) : Number :=
  if percent then (nearest a).div 100 else nearest a

theorem reading_mono (percent : Bool) {a b : Rat} (h : 0 ≤ a) (hab : a ≤ b) :
    (reading percent a).le (reading percent b) = true := by
  have mono := nearest_mono h hab
  unfold reading
  cases percent with
  | false => exact mono
  | true =>
    rw [if_pos rfl, if_pos rfl]
    rcases nearest_cases (h.trans hab) with ⟨r, hr, rounds⟩ | rounds
    · rcases nearest_cases h with ⟨r', hr', rounds'⟩ | rounds'
      · rw [rounds, rounds', le_finite] at mono
        rw [rounds, rounds', div_hundred hr, div_hundred hr']
        exact nearest_mono (by positivity) (by gcongr)
      · rw [rounds, rounds'] at mono
        cases mono
    · rw [rounds]
      rcases nearest_cases h with ⟨r', hr', rounds'⟩ | rounds'
      · rw [rounds', div_hundred hr']
        rcases nearest_cases (a := r' / 100) (by positivity) with ⟨r, hr, below⟩ | below <;>
        · rw [below]
          rfl
      · rw [rounds']
        rfl

theorem neg_reading (percent : Bool) {a : Rat} (h : 0 ≤ a) :
    (if percent then (nearest a).neg.div 100 else (nearest a).neg) = (reading percent a).neg := by
  unfold reading
  cases percent with
  | false => rfl
  | true =>
    rw [if_pos rfl, if_pos rfl]
    rcases nearest_cases h with ⟨r, hr, rounds⟩ | rounds
    · rw [rounds, neg_div_hundred hr]
    · rw [rounds]
      rfl

/-- The part of one that a share is, without rounding. -/
def fraction (percent : Bool) (a : Rat) : Rat := if percent then a / 100 else a

/-- A share is a decimal numeral, with or without a minus, for a value or a percentage. -/
inductive Denotes : Share → Rat → Prop where
  | plus (d : Numeral) (percent : Bool) : Denotes ⟨d.chars, percent⟩ (fraction percent d.value)
  | minus (d : Numeral) (percent : Bool) :
      Denotes ⟨'-' :: d.chars, percent⟩ (-fraction percent d.value)

theorem ofStart_minus (d : Numeral) :
    ofStart (String.ofList ('-' :: d.chars)) = (nearest d.value).neg := by
  have trimmed : trimLeft (String.ofList ('-' :: d.chars)).toList = '-' :: d.chars := by
    rw [String.toList_ofList, trimLeft, List.dropWhile_cons_of_neg (by decide)]
  rw [ofStart, trimmed, takeNumeral?, takeSign]
  dsimp only
  rw [d.infinityWord_isPrefixOf, if_neg Bool.false_ne_true, d.takeDecimal?_chars, ofDecimal_neg,
    d.ofDecimal_digits]

theorem value_plus (d : Numeral) (percent : Bool) :
    Share.value ⟨d.chars, percent⟩ = reading percent d.value := by
  rw [reading, ← d.ofStart_text]
  rfl

theorem value_minus (d : Numeral) (percent : Bool) :
    Share.value ⟨'-' :: d.chars, percent⟩ = (reading percent d.value).neg := by
  rw [← neg_reading percent d.value_nonneg, ← ofStart_minus]
  rfl

def scaledBy (percent : Bool) (q : Rat) : Rat := if percent then q * 100 else q

theorem fraction_le {percent : Bool} {a q : Rat} :
    fraction percent a ≤ q ↔ a ≤ scaledBy percent q := by
  unfold fraction scaledBy
  cases percent with
  | false => rfl
  | true => exact div_le_iff₀ (by norm_num)

/-- How far from its value a share between 0 and 1 may be read. -/
def margin : Rat := 1 / 2 ^ 51

theorem fraction_nonneg (d : Numeral) (percent : Bool) : 0 ≤ fraction percent d.value := by
  have := d.value_nonneg
  unfold fraction
  split <;> positivity

theorem reading_nonneg (d : Numeral) (percent : Bool) :
    Number.le 0 (reading percent d.value) = true := by
  have low : Number.le 0 (reading percent 0) = true := by cases percent <;> decide +kernel
  exact le_trans low (reading_mono percent le_rfl d.value_nonneg)

theorem reading_le {percent : Bool} {a q : Rat} {x : Number} (h : 0 ≤ a)
    (hq : (reading percent (scaledBy percent q)).le x = true) (ha : fraction percent a ≤ q) :
    (reading percent a).le x = true :=
  le_trans (reading_mono percent h (fraction_le.1 ha)) hq

theorem fraction_le_of_reading {percent : Bool} {a q : Rat} {x : Number} (nonneg : 0 ≤ q)
    (hq : (reading percent (scaledBy percent q)).le x = false)
    (ha : (reading percent a).le x = true) : fraction percent a ≤ q := by
  by_contra above
  have scaled : scaledBy percent q ≤ a := (not_le.1 (mt fraction_le.2 above)).le
  have positive : 0 ≤ scaledBy percent q := by
    unfold scaledBy
    split
    · positivity
    · exact nonneg
  exact Bool.false_ne_true (hq.symm.trans (le_trans (reading_mono percent positive scaled) ha))

theorem inUnitInterval_of_denotes {s : Share} {q : Rat} (hs : Denotes s q) :
    (0 ≤ q → q ≤ 1 → inUnitInterval s.value = true) ∧
      (inUnitInterval s.value = true → -margin ≤ q ∧ q ≤ 1 + margin) := by
  -- reading is monotone, so it is enough to know how the bounds and the margins are read
  have none (percent : Bool) : (reading percent (scaledBy percent 0)).le 0 = true := by
    cases percent <;> decide +kernel
  have one (percent : Bool) : (reading percent (scaledBy percent 1)).le 1 = true := by
    cases percent <;> decide +kernel
  have some (percent : Bool) : (reading percent (scaledBy percent margin)).le 0 = false := by
    cases percent <;> decide +kernel
  have more (percent : Bool) : (reading percent (scaledBy percent (1 + margin))).le 1 = false := by
    cases percent <;> decide +kernel
  have small : 0 ≤ margin := by decide +kernel
  unfold inUnitInterval
  simp only [Bool.and_eq_true]
  cases hs with
  | plus d percent =>
    have nonneg := fraction_nonneg d percent
    rw [value_plus]
    refine ⟨fun _ most => ⟨reading_nonneg d percent, reading_le d.value_nonneg (one percent) most⟩,
      fun within => ⟨by linarith, ?_⟩⟩
    exact fraction_le_of_reading (by linarith) (more percent) within.2
  | minus d percent =>
    have nonneg := fraction_nonneg d percent
    rw [value_minus]
    refine ⟨fun least _ => ⟨?_, ?_⟩, fun within => ⟨?_, by linarith⟩⟩
    · exact zero_le_neg.2 (reading_le d.value_nonneg (none percent) (by linarith))
    · exact le_trans (neg_le_zero (reading_nonneg d percent)) (by decide)
    · exact neg_le_neg (fraction_le_of_reading small (some percent) (zero_le_neg.1 within.1))

def WrittenShare (s : Share) (written : List Char) : Prop :=
  ∃ indent word gap pad mark closing,
    written = indent ++ word ++ gap ++ ':' :: pad ++ s.numeral ++ mark ++ closing ∧
    Fill indent ∧ word.map Char.toLower = confidenceKeyword ∧ Fill gap ∧ Fill pad ∧
    (if s.percent then ∃ space, mark = space ++ ['%'] ∧ ∀ c ∈ space, isBlank c = true
      else mark = []) ∧ Closing closing

def Shares (text : List Char) (s : Share) : Prop :=
  ∃ front written rest, text = front ++ written ++ rest ∧ WrittenShare s written ∧
    (∀ c, front.getLast? = some c → isLineBreak c = true) ∧
    ∀ c, rest.head? = some c → isLineBreak c = true

theorem exists_digits {cs ds rest : List Char} (hs : cs.span Char.isDigit = (ds, rest)) :
    cs = ds ++ rest ∧ ∀ c ∈ ds, c.isDigit = true := by
  rw [List.span_eq_takeWhile_dropWhile] at hs
  obtain ⟨rfl, rfl⟩ := Prod.mk.inj hs
  exact ⟨(List.takeWhile_append_dropWhile).symm, mem_takeWhile⟩

theorem exists_unsigned {body : List Char} {sign numeral rest : List Char}
    (hn : (match body.span Char.isDigit with
        | ([], _) => none
        | (whole, '.' :: rest) =>
          match rest.span Char.isDigit with
          | ([], _) => some (sign ++ whole, '.' :: rest)
          | (part, rest) => some (sign ++ whole ++ '.' :: part, rest)
        | (whole, rest) => some (sign ++ whole, rest)) = some (numeral, rest)) :
    ∃ d : Numeral, numeral = sign ++ d.chars ∧ body = d.chars ++ rest := by
  split at hn
  · cases hn
  · rename_i whole after nonempty hw
    obtain ⟨rfl, digits⟩ := exists_digits hw
    split at hn
    · cases hn
      exact ⟨⟨whole, [], nonempty, digits, by simp⟩, by simp [Numeral.chars, Numeral.pointed]⟩
    · rename_i part rest some hp
      obtain ⟨rfl, more⟩ := exists_digits hp
      cases hn
      refine ⟨⟨whole, part, nonempty, digits, more⟩, ?_⟩
      simp [Numeral.chars, Numeral.pointed, if_neg some]
  · rename_i whole rest nonempty _ hw
    obtain ⟨rfl, digits⟩ := exists_digits hw
    cases hn
    exact ⟨⟨whole, [], nonempty, digits, by simp⟩, by simp [Numeral.chars, Numeral.pointed]⟩

theorem exists_numeral {cs numeral rest : List Char} (hn : numeral? cs = some (numeral, rest)) :
    cs = numeral ++ rest ∧ ∃ d : Numeral, numeral = d.chars ∨ numeral = '-' :: d.chars := by
  unfold numeral? at hn
  split at hn
  rename_i sign body hs
  obtain ⟨d, rfl, rfl⟩ := exists_unsigned hn
  split at hs
  · cases hs
    exact ⟨rfl, d, .inr rfl⟩
  · cases hs
    exact ⟨rfl, d, .inl rfl⟩

theorem exists_share {cs : List Char} {m : Marker Share} (hm : share? cs = some m) :
    ∃ pad mark closing, cs = pad ++ m.value.numeral ++ mark ++ closing ++ m.rest ∧ Fill pad ∧
      (∃ q, Denotes m.value q) ∧
      (if m.value.percent then ∃ space, mark = space ++ ['%'] ∧ ∀ c ∈ space, isBlank c = true
        else mark = []) ∧
      Closing closing ∧ ∀ c, m.rest.head? = some c → isLineBreak c = true := by
  obtain ⟨⟨numeral, rest⟩, hn, hm⟩ := Option.bind_eq_some_iff.1 hm
  obtain ⟨pad, hpad, whole⟩ := exists_fill cs
  obtain ⟨split, d, hd⟩ := exists_numeral hn
  have denoted (percent : Bool) : ∃ q, Denotes ⟨numeral, percent⟩ q := by
    rcases hd with rfl | rfl
    · exact ⟨_, .plus d percent⟩
    · exact ⟨_, .minus d percent⟩
  dsimp only at hm
  split at hm
  · rename_i after closed
    cases hm
    split at closed
    · rename_i after' sign
      obtain ⟨closing, rfl, hc, ends⟩ := exists_closing closed
      obtain ⟨space, after, blanks⟩ : ∃ space, rest = space ++ dropBlanks rest ∧
          ∀ c ∈ space, isBlank c = true :=
        ⟨_, List.takeWhile_append_dropWhile.symm, mem_takeWhile⟩
      rw [sign] at after
      refine ⟨pad, space ++ ['%'], closing, ?_, hpad, denoted true, ⟨space, rfl, blanks⟩, hc, ends⟩
      rw [whole, split, after]
      simp
    · cases closed
  · obtain ⟨after, closed, rfl⟩ := Option.map_eq_some_iff.1 hm
    obtain ⟨closing, rfl, hc, ends⟩ := exists_closing closed
    refine ⟨pad, [], closing, ?_, hpad, denoted false, rfl, hc, ends⟩
    rw [whole, split]
    simp

theorem exists_writtenShare {cs : List Char} {m : Marker Share}
    (hm : confidenceMarker? cs = some m) :
    (∃ q, Denotes m.value q) ∧ ∃ written, cs = written ++ m.rest ∧ WrittenShare m.value written ∧
      ∀ c, m.rest.head? = some c → isLineBreak c = true := by
  obtain ⟨rest, colon, hs⟩ := Option.bind_eq_some_iff.1 hm
  obtain ⟨indent, word, gap, rfl, hi, hw, hg⟩ := exists_colon colon
  obtain ⟨pad, mark, closing, rfl, hpad, denoted, marked, hc, ends⟩ := exists_share hs
  refine ⟨denoted, _, ?_,
    ⟨indent, word, gap, pad, mark, closing, rfl, hi, hw, hg, hpad, marked, hc⟩, ends⟩
  simp only [List.append_assoc, List.cons_append]

theorem confidence_eq_some {text : String} {own : Number} (h : confidence text = some own) :
    ∃ s q, last? confidenceMarker? text = some s ∧ Shares text.toList s ∧ Denotes s q ∧
      own = s.value ∧ -margin ≤ q ∧ q ≤ 1 + margin := by
  obtain ⟨read, within⟩ := Option.filter_eq_some_iff.1 h
  obtain ⟨s, last, rfl⟩ := Option.map_eq_some_iff.1 read
  obtain ⟨front, cs, m, split, hm, rfl, starts⟩ := exists_marker (List.mem_of_getLast? last)
  obtain ⟨⟨q, denoted⟩, written, rfl, hw, ends⟩ := exists_writtenShare hm
  refine ⟨m.value, q, last, ⟨front, written, m.rest, by rw [split, List.append_assoc], hw,
    fun c hc => ?_, ends⟩, denoted, rfl, (inUnitInterval_of_denotes denoted).2 within⟩
  rw [hc] at starts
  exact starts

end Response
end VisaEligibility
