import Mathlib.Data.List.Basic
import VisaEligibility.Proofs.Calendar.DayTexts
import VisaEligibility.Validation.Request
/-!
The evaluation date of a request. A text is a date by its form and by what it is read as: the days that
exist are accepted as they are, days past the end of their month as days of the next, and a year that
can be a month is read as one where the day would not exist in any month.
-/
set_option autoImplicit false

namespace VisaEligibility.Validation

open Instant (dayChars midnight startOfDay Written InRange MonthFirst monthFirst)

def dayText (c : CivilDay) : String := String.ofList (dayChars c)

variable {c : CivilDay} {zone : Zone}

theorem inRange_iff : InRange c ↔ c.Exists ∨ c.PastMonth := by
  have length := CivilDay.monthLength_bounds c.year c.month
  constructor
  · rintro ⟨month, first, last⟩
    rcases Nat.lt_or_ge (CivilDay.monthLength c.year c.month) c.day with past | within
    · exact .inr ⟨month, past, last⟩
    · exact .inl ⟨month, first, within⟩
  · rintro (⟨month, first, last⟩ | ⟨month, past, last⟩)
    · exact ⟨month, first, by omega⟩
    · exact ⟨month, by omega, last⟩

theorem exists_padded_two {n : Nat} (h : n ≤ 99) : ∃ a b, Instant.padded 2 n = [a, b] := by
  have length := Instant.length_padded (by decide : 0 < 2) (Nat.lt_succ_of_le h)
  exact List.length_eq_two.1 length

theorem exists_padded_four {n : Nat} (h : n ≤ 9999) :
    ∃ a b c d, Instant.padded 4 n = [a, b, c, d] := by
  have length := Instant.length_padded (by decide : 0 < 4) (Nat.lt_succ_of_le h)
  exact List.length_eq_four.1 length

theorem exists_written {y₁ y₂ y₃ y₄ m₁ m₂ d₁ d₂ : Char}
    (digits : [y₁, y₂, y₃, y₄, m₁, m₂, d₁, d₂].all Char.isDigit = true) :
    ∃ c, Written c ∧ dayChars c = [y₁, y₂, y₃, y₄, '-', m₁, m₂, '-', d₁, d₂] := by
  simp only [List.all_cons, List.all_nil, Bool.and_eq_true] at digits
  have year : ∀ c ∈ [y₁, y₂, y₃, y₄], c.isDigit = true := by simp [digits]
  have month : ∀ c ∈ [m₁, m₂], c.isDigit = true := by simp [digits]
  have day : ∀ c ∈ [d₁, d₂], c.isDigit = true := by simp [digits]
  refine ⟨⟨(Number.ofDigits [y₁, y₂, y₃, y₄] : Nat), Number.ofDigits [m₁, m₂],
    Number.ofDigits [d₁, d₂]⟩, ⟨⟨by simp, ?_⟩, ?_, ?_⟩, ?_⟩
  · have bound : Number.ofDigits [y₁, y₂, y₃, y₄] < 10 ^ 4 := Number.ofDigits_lt year
    dsimp only
    omega
  · have bound : Number.ofDigits [m₁, m₂] < 10 ^ 2 := Number.ofDigits_lt month
    dsimp only
    omega
  · have bound : Number.ofDigits [d₁, d₂] < 10 ^ 2 := Number.ofDigits_lt day
    dsimp only
    omega
  · have years := Instant.padded_ofDigits (List.cons_ne_nil _ _) year
    have months := Instant.padded_ofDigits (List.cons_ne_nil _ _) month
    have days := Instant.padded_ofDigits (List.cons_ne_nil _ _) day
    simp only [List.length_cons, List.length_nil] at years months days
    rw [dayChars, Int.toNat_natCast, years, months, days]
    rfl

theorem isDateText_iff {s : String} : isDateText s = true ↔
    ∃ c rest, Written c ∧ s.toList = dayChars c ++ rest ∧ isTimePart rest = true := by
  constructor
  · intro h
    unfold isDateText at h
    split at h
    · rename_i y₁ y₂ y₃ y₄ m₁ m₂ d₁ d₂ rest text
      obtain ⟨digits, time⟩ := Bool.and_eq_true_iff.1 h
      obtain ⟨c, written, chars⟩ := exists_written digits
      exact ⟨c, rest, written, by rw [text, chars]; rfl, time⟩
    · cases h
  · rintro ⟨c, rest, ⟨year, month, day⟩, text, time⟩
    obtain ⟨y₁, y₂, y₃, y₄, hy⟩ := exists_padded_four (by omega : c.year.toNat ≤ 9999)
    obtain ⟨m₁, m₂, hm⟩ := exists_padded_two month
    obtain ⟨d₁, d₂, hd⟩ := exists_padded_two day
    have digits : [y₁, y₂, y₃, y₄, m₁, m₂, d₁, d₂].all Char.isDigit = true := by
      have parts : [y₁, y₂, y₃, y₄, m₁, m₂, d₁, d₂] = Instant.padded 4 c.year.toNat ++
          Instant.padded 2 c.month ++ Instant.padded 2 c.day := by
        rw [hy, hm, hd]
        rfl
      rw [parts, List.all_append, List.all_append]
      simp only [Bool.and_eq_true, List.all_eq_true]
      exact ⟨⟨fun _ => Instant.isDigit_of_mem_padded, fun _ => Instant.isDigit_of_mem_padded⟩,
        fun _ => Instant.isDigit_of_mem_padded⟩
    rw [dayChars, hy, hm, hd] at text
    rw [isDateText, text]
    exact Bool.and_eq_true_iff.2 ⟨digits, time⟩

theorem evaluationDate_of_date {s : String} (h : isDateText s = true) :
    evaluationDate (.text s) zone =
      if (Instant.ofText s zone).isValid then .ok (Instant.ofText s zone)
      else .fault "evaluationDate is not a valid date" := by
  simp only [evaluationDate, h]
  rfl

theorem evaluationDate_dayText (h : Written c) : evaluationDate (.text (dayText c)) zone =
    if InRange c then .ok (midnight c)
    else if MonthFirst c then .ok (startOfDay zone (monthFirst c))
    else .fault "evaluationDate is not a valid date" := by
  have date : isDateText (dayText c) = true :=
    isDateText_iff.2 ⟨c, [], h, by rw [dayText, String.toList_ofList, List.append_nil], rfl⟩
  rw [evaluationDate_of_date date, dayText, Instant.ofText_dayChars h]
  split
  · rfl
  · split <;> rfl

theorem eq_cons_of_isTimePart {rest : List Char} (h : isTimePart rest = true) :
    rest = [] ∨ ∃ time, rest = 'T' :: time := by
  unfold isTimePart at h
  split at h
  · exact .inl rfl
  · exact .inr ⟨_, rfl⟩
  · cases h

theorem isDateText_of_accepted {s : String} {t : Instant}
    (h : evaluationDate (.text s) zone = .ok t) : isDateText s = true := by
  simp only [evaluationDate] at h
  split at h
  · cases h
  · rename_i date
    simpa using date

theorem exists_day_of_accepted {s : String} {t : Instant} (h : evaluationDate (.text s) zone = .ok t) :
    ∃ c rest, Written c ∧ s.toList = dayChars c ++ rest ∧
      (InRange c ∨ rest = [] ∧ MonthFirst c) := by
  have date := isDateText_of_accepted h
  obtain ⟨c, rest, written, text, time⟩ := isDateText_iff.1 date
  have same : s = String.ofList (dayChars c ++ rest) := by rw [← text, String.ofList_toList]
  refine ⟨c, rest, written, text, ?_⟩
  by_cases inRange : InRange c
  · exact .inl inRange
  rcases eq_cons_of_isTimePart time with rfl | ⟨time, rfl⟩
  · refine .inr ⟨rfl, ?_⟩
    by_contra first
    have dated : evaluationDate (.text (dayText c)) zone = _ := evaluationDate_dayText written
    rw [if_neg inRange, if_neg first, dayText, ← List.append_nil (dayChars c), ← same, h] at dated
    cases dated
  · rw [evaluationDate_of_date date, same, Instant.ofText_timed written inRange] at h
    cases h

/-- Every accepted text starts with a day that exists, unless the day is past the end of its month or
the text is a day that only the loose form reads. Alone, a day that exists is taken as its start, one
past the end of its month as the start of the day it is carried to, and one of the loose form as what
it is month first. -/
theorem accepted_days_exist_unless_carried (s : String) (zone : Zone) :
    (∀ t, evaluationDate (.text s) zone = .ok t → ∃ c rest, Written c ∧
      s.toList = dayChars c ++ rest ∧
      (c.Exists ∨ c.PastMonth ∨ rest = [] ∧ ¬InRange c ∧ MonthFirst c)) ∧
    ∀ c, Written c → s = dayText c →
      (c.Exists → evaluationDate (.text s) zone = .ok (midnight c) ∧
        (midnight c).timestamp? = some (s ++ "T00:00:00.000Z")) ∧
      (c.PastMonth → evaluationDate (.text s) zone = .ok (midnight c.carried) ∧
        (midnight c.carried).timestamp? = some (dayText c.carried ++ "T00:00:00.000Z")) ∧
      (¬InRange c → MonthFirst c →
        evaluationDate (.text s) zone = .ok (startOfDay zone (monthFirst c))) ∧
      (¬InRange c → ¬MonthFirst c →
        evaluationDate (.text s) zone = .fault "evaluationDate is not a valid date") := by
  constructor
  · intro t h
    obtain ⟨c, rest, written, text, read⟩ := exists_day_of_accepted h
    refine ⟨c, rest, written, text, ?_⟩
    by_cases inRange : InRange c
    · exact (inRange_iff.1 inRange).imp_right .inl
    · exact .inr (.inr (by simpa [inRange] using read))
  · rintro c written rfl
    refine ⟨fun real => ?_, fun past => ?_, fun outside first => ?_, fun outside first => ?_⟩
    · rw [evaluationDate_dayText written, if_pos (inRange_iff.2 (.inl real))]
      exact ⟨rfl, Instant.timestamp?_midnight written.year real⟩
    · have carried : midnight c.carried = midnight c := by
        rw [midnight, past.toDays_carried, midnight]
      rw [evaluationDate_dayText written, if_pos (inRange_iff.2 (.inr past))]
      exact ⟨congrArg Except.ok carried.symm,
        Instant.timestamp?_midnight written.year past.exists_carried⟩
    · rw [evaluationDate_dayText written, if_neg outside, if_pos first]
    · rw [evaluationDate_dayText written, if_neg outside, if_neg first]

/-- A leap day is taken as its start, and the day after as the first of March. -/
theorem accepted_days_exist_unless_carried_february :
    (evaluationDate (.text "2024-02-29") .universal).toOption.bind Instant.timestamp? =
        some "2024-02-29T00:00:00.000Z" ∧
      (evaluationDate (.text "2024-02-30") .universal).toOption.bind Instant.timestamp? =
        some "2024-03-01T00:00:00.000Z" ∧
      ∃ c rest, Written c ∧ "2024-02-30".toList = dayChars c ++ rest ∧
        (c.Exists ∨ c.PastMonth ∨ rest = [] ∧ ¬InRange c ∧ MonthFirst c) := by
  have real : CivilDay.Exists ⟨2024, 2, 29⟩ := ⟨by decide, by decide⟩
  have past : CivilDay.PastMonth ⟨2024, 2, 30⟩ := ⟨by decide, by decide⟩
  have written : Written ⟨2024, 2, 29⟩ := ⟨by decide, by decide, by decide⟩
  have written' : Written ⟨2024, 2, 30⟩ := ⟨by decide, by decide, by decide⟩
  have text : "2024-02-29" = dayText ⟨2024, 2, 29⟩ := by decide +kernel
  have text' : "2024-02-30" = dayText ⟨2024, 2, 30⟩ := by decide +kernel
  have next : dayText (CivilDay.carried ⟨2024, 2, 30⟩) = "2024-03-01" := by decide +kernel
  obtain ⟨accepted, time⟩ := ((accepted_days_exist_unless_carried _ _).2 _ written text).1 real
  obtain ⟨carried, time'⟩ := ((accepted_days_exist_unless_carried _ _).2 _ written' text').2.1 past
  rw [next] at time'
  rw [accepted, carried]
  exact ⟨time, time', (accepted_days_exist_unless_carried _ .universal).1 _ carried⟩

/-- Past the end of February by a day, and a day of no month. -/
theorem accepted_day_does_not_exist :
    (¬CivilDay.Exists ⟨2024, 2, 30⟩ ∧
      (evaluationDate (.text "2024-02-30") .universal).toOption.bind Instant.timestamp? =
        some "2024-03-01T00:00:00.000Z") ∧
    ¬CivilDay.Exists ⟨12, 13, 45⟩ ∧
      (evaluationDate (.text "0012-13-45") .universal).toOption.bind Instant.timestamp? =
        some "2045-12-13T00:00:00.000Z" := by
  refine ⟨⟨fun h => ?_, by decide +kernel⟩, fun h => ?_, by decide +kernel⟩
  · exact absurd h.day (by decide)
  · exact absurd h.month (by decide)

end VisaEligibility.Validation
