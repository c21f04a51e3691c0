import Mathlib.Tactic.IntervalCases
import VisaEligibility.Proofs.Calendar.Days
/-!
The months of the Gregorian calendar. A day of the calendar that exists is read back from the number
of days that it stands for, and a day past the end of its month stands for a day of the next.
-/
set_option autoImplicit false

namespace VisaEligibility.CivilDay

def isLeap (year : Int) : Bool := year % 4 = 0 && (year % 100 ≠ 0 || year % 400 = 0)

def monthLength (year : Int) (month : Nat) : Nat :=
  if month = 2 then if isLeap year then 29 else 28
  else if month = 4 || month = 6 || month = 9 || month = 11 then 30
  else 31

structure Exists (c : CivilDay) : Prop where
  month : 1 ≤ c.month ∧ c.month ≤ 12
  day : 1 ≤ c.day ∧ c.day ≤ monthLength c.year c.month

def marchMonth (month : Nat) : Int := if month > 2 then month - 3 else month + 9

def marchYear (c : CivilDay) : Int := if c.month ≤ 2 then c.year - 1 else c.year

def marchDay (c : CivilDay) : Int := (153 * marchMonth c.month + 2) / 5 + c.day - 1

theorem toDays_eq (c : CivilDay) : c.toDays =
    c.marchYear / 400 * 146097 + (c.marchYear % 400 * 365 + c.marchYear % 400 / 4 -
      c.marchYear % 400 / 100 + c.marchDay) - 719468 := by
  have cycle : c.marchYear - c.marchYear / 400 * 400 = c.marchYear % 400 := by omega
  unfold toDays
  simp (disch := decide) only [Int.fdiv_eq_ediv_of_nonneg]
  rw [← cycle]
  rfl

/-- The last day of a year from March on, where it has 366 days, is 29 February. -/
def IsYearDay (year day : Int) : Prop := 0 ≤ day ∧ day ≤ 365 ∧ (day = 365 → isLeap (year + 1) = true)

theorem monthLength_february (year : Int) : monthLength year 2 = if isLeap year then 29 else 28 := rfl

theorem monthLength_le {month : Nat} (low : 1 ≤ month) (high : month ≤ 12) (year : Int) :
    (monthLength year month : Int) ≤
      (153 * (marchMonth month + 1) + 2) / 5 - (153 * marchMonth month + 2) / 5 := by
  by_cases february : month = 2
  · subst february
    rw [monthLength_february]
    split <;> decide
  · unfold monthLength
    rw [if_neg february]
    interval_cases month <;> first | exact absurd rfl february | decide

theorem isYearDay_marchDay {c : CivilDay} (h : c.Exists) : IsYearDay c.marchYear c.marchDay := by
  obtain ⟨⟨low, high⟩, first, last⟩ := h
  have length := monthLength_le low high c.year
  have leap : c.month = 2 → c.day = 29 → isLeap (c.marchYear + 1) = true := by
    intro february full
    have next : c.marchYear + 1 = c.year := by
      rw [marchYear, if_pos (by omega)]
      omega
    by_contra common
    rw [february, monthLength_february, ← next, if_neg common] at last
    omega
  have most : c.month = 2 → c.day ≤ 29 := by
    intro february
    rw [february, monthLength_february] at last
    split at last <;> omega
  unfold IsYearDay marchDay
  generalize hm : marchMonth c.month = m at length ⊢
  have bounds : 0 ≤ m ∧ m ≤ 11 ∧ (m = 11 → c.month = 2) := by
    unfold marchMonth at hm
    split at hm <;> omega
  refine ⟨by omega, by omega, fun full => ?_⟩
  have february : m = 11 := by omega
  exact leap (bounds.2.2 february) (by omega)

theorem isYearDay_dayOfYear {day : Int} (low : 0 ≤ day) (high : day < 146097) :
    IsYearDay (yearOfEra day) (dayOfYear day) := by
  obtain ⟨first, last⟩ := dayOfYear_bounds low high
  refine ⟨first, last, fun full => ?_⟩
  have years : yearOfEra day = (day - day / 1460 + day / 36524 - day / 146096) / 365 := rfl
  obtain ⟨start, stop⟩ := yearOfEra_bounds low high
  unfold dayOfYear at full
  clear first last
  generalize yearOfEra day = year at years start stop full ⊢
  obtain ⟨k, r, hk, hr⟩ : ∃ k r : Int, year = 4 * k + r ∧ 0 ≤ r ∧ r < 4 :=
    ⟨year / 4, year % 4, by omega, by omega⟩
  have quarter : year / 4 = k := by omega
  obtain ⟨q, hq⟩ : ∃ q, q = year / 100 := ⟨_, rfl⟩
  have spent : day = 1461 * k + 365 * r - q + 365 := by omega
  have third : r = 3 := by
    by_contra other
    have leaps : day / 1460 = k := by omega
    have centuries : q ≤ day / 36524 := by omega
    omega
  simp only [isLeap, Bool.and_eq_true, Bool.or_eq_true, decide_eq_true_eq]
  refine ⟨by omega, ?_⟩
  by_contra common
  -- the last year of a century has no 29 February but for the fourth one
  have century : q = 0 ∨ q = 1 ∨ q = 2 := by omega
  rcases century with h | h | h <;> omega

theorem year_le_of_sum {year year' day day' : Int} (low : 0 ≤ year) (high : year' < 400)
    (h : IsYearDay year day) (h' : 0 ≤ day') (sum : year * 365 + year / 4 - year / 100 + day =
      year' * 365 + year' / 4 - year' / 100 + day') : year' ≤ year := by
  obtain ⟨first, last, leap⟩ := h
  simp only [isLeap, Bool.and_eq_true, Bool.or_eq_true, decide_eq_true_eq] at leap
  by_contra later
  have next : year' = year + 1 := by omega
  subst next
  omega

theorem eq_of_sum {year year' day day' : Int} (years : 0 ≤ year ∧ year < 400)
    (years' : 0 ≤ year' ∧ year' < 400) (h : IsYearDay year day) (h' : IsYearDay year' day')
    (sum : year * 365 + year / 4 - year / 100 + day =
      year' * 365 + year' / 4 - year' / 100 + day') : year = year' ∧ day = day' := by
  have below := year_le_of_sum years.1 years'.2 h h'.1 sum
  have above := year_le_of_sum years'.1 years.2 h' h.1 sum.symm
  have same : year = year' := Int.le_antisymm above below
  subst same
  exact ⟨rfl, by omega⟩

theorem ofMarch_marchDay {c : CivilDay} (h : c.Exists) :
    ofMarch (c.marchYear / 400) (c.marchYear % 400) c.marchDay = c := by
  obtain ⟨first, last, -⟩ := isYearDay_marchDay h
  obtain ⟨⟨low, high⟩, start, stop⟩ := h
  have length := monthLength_le low high c.year
  have year : c.marchYear % 400 + c.marchYear / 400 * 400 = c.marchYear := by omega
  have month : (5 * c.marchDay + 2) / 153 = marchMonth c.month := by
    unfold marchDay
    have bounds : 0 ≤ marchMonth c.month := by
      unfold marchMonth
      split <;> omega
    omega
  have day : (c.marchDay - (153 * marchMonth c.month + 2) / 5 + 1).toNat = c.day := by
    unfold marchDay
    omega
  obtain ⟨shifted, hs, ⟨early, he⟩ | ⟨late, he⟩⟩ :=
    @ofMarch_eq (c.marchYear / 400) (c.marchYear % 400) c.marchDay first last
  all_goals
    rw [month] at hs
    subst hs
    rw [he, year, day]
    rcases c with ⟨y, m, d⟩
    simp only [mk.injEq, and_true]
    unfold marchYear
    unfold marchMonth at *
    dsimp only at *
    split <;> omega

theorem isLeap_cycle (year : Int) : isLeap (year % 400 + 1) = isLeap (year + 1) := by
  have quarter : (year % 400 + 1) % 4 = (year + 1) % 4 := by omega
  have century : (year % 400 + 1) % 100 = (year + 1) % 100 := by omega
  have cycle : (year % 400 + 1) % 400 = (year + 1) % 400 := by omega
  rw [isLeap, isLeap, quarter, century, cycle]

/-- A day of the calendar that exists is read back from the number of days that it stands for. -/
theorem ofDays_toDays {c : CivilDay} (h : c.Exists) : ofDays c.toDays = c := by
  have whole := toDays_eq c
  have own := isYearDay_marchDay h
  unfold IsYearDay at own
  rw [← isLeap_cycle] at own
  have years : 0 ≤ c.marchYear % 400 ∧ c.marchYear % 400 < 400 := by omega
  obtain ⟨day, hd⟩ : ∃ day, day = (c.toDays + 719468) % 146097 := ⟨_, rfl⟩
  have low : 0 ≤ day := by omega
  have high : day < 146097 := by omega
  have counted : day = yearOfEra day * 365 + yearOfEra day / 4 - yearOfEra day / 100 +
      dayOfYear day := by
    unfold dayOfYear
    omega
  have sum : day = c.marchYear % 400 * 365 + c.marchYear % 400 / 4 - c.marchYear % 400 / 100 +
      c.marchDay := by omega
  obtain ⟨sameYear, sameDay⟩ := eq_of_sum (yearOfEra_bounds low high) years
    (isYearDay_dayOfYear low high) own (counted.symm.trans sum)
  have era : (c.toDays + 719468) / 146097 = c.marchYear / 400 := by omega
  rw [ofDays_eq, ← hd, sameYear, sameDay, era, ofMarch_marchDay h]

theorem toDays_withDay (c : CivilDay) (day : Nat) :
    { c with day := day }.toDays = c.toDays + day - c.day := by
  rw [toDays_eq, toDays_eq]
  simp only [marchYear, marchDay]
  omega

theorem toDays_nextMonth {month : Nat} (low : 1 ≤ month) (high : month < 12) (year : Int) :
    toDays ⟨year, month + 1, 1⟩ = toDays ⟨year, month, monthLength year month⟩ + 1 := by
  rw [toDays_eq, toDays_eq]
  by_cases february : month = 2
  · subst february
    have years : marchYear ⟨year, 3, 1⟩ = year ∧
        marchYear ⟨year, 2, monthLength year 2⟩ = year - 1 := ⟨rfl, rfl⟩
    have days : marchDay ⟨year, 3, 1⟩ = 0 ∧ marchDay ⟨year, 2, monthLength year 2⟩ =
        336 + monthLength year 2 := by simp only [marchDay, marchMonth]; omega
    rw [years.1, years.2, days.1, days.2, monthLength_february]
    cases leap : isLeap year <;>
    · simp only [isLeap, Bool.and_eq_true, Bool.or_eq_true, decide_eq_true_eq,
        Bool.and_eq_false_iff, Bool.or_eq_false_iff, decide_eq_false_iff_not] at leap
      simp only [Bool.false_eq_true, if_true, if_false]
      omega
  · have same : marchYear ⟨year, month + 1, 1⟩ = marchYear ⟨year, month, monthLength year month⟩ := by
      simp only [marchYear]
      split <;> split <;> omega
    have days : marchDay ⟨year, month + 1, 1⟩ =
        marchDay ⟨year, month, monthLength year month⟩ + 1 := by
      simp only [marchDay, monthLength, if_neg february]
      interval_cases month <;> first | exact absurd rfl february | decide
    rw [same, days]
    omega

/-- The day is past the end of its month, but not of the longest one. -/
structure PastMonth (c : CivilDay) : Prop where
  month : 1 ≤ c.month ∧ c.month ≤ 12
  day : monthLength c.year c.month < c.day ∧ c.day ≤ 31

def carried (c : CivilDay) : CivilDay :=
  ⟨c.year, c.month + 1, c.day - monthLength c.year c.month⟩

theorem monthLength_bounds (year : Int) (month : Nat) :
    28 ≤ monthLength year month ∧ monthLength year month ≤ 31 := by
  unfold monthLength
  split
  · split <;> decide
  · split <;> decide

theorem PastMonth.month_lt {c : CivilDay} (h : c.PastMonth) : c.month < 12 := by
  obtain ⟨⟨low, high⟩, past, most⟩ := h
  rcases Nat.lt_or_eq_of_le high with early | last
  · exact early
  · rw [last] at past
    exact absurd most (Nat.not_le.2 past)

theorem PastMonth.exists_carried {c : CivilDay} (h : c.PastMonth) : c.carried.Exists := by
  have december := h.month_lt
  obtain ⟨-, past, most⟩ := h
  have length := (monthLength_bounds c.year c.month).1
  have later := (monthLength_bounds c.year (c.month + 1)).1
  refine ⟨⟨by simp [carried], ?_⟩, ?_, ?_⟩ <;> simp only [carried] <;> omega

theorem PastMonth.toDays_carried {c : CivilDay} (h : c.PastMonth) :
    c.carried.toDays = c.toDays := by
  have december := h.month_lt
  obtain ⟨⟨low, high⟩, past, most⟩ := h
  have following := toDays_nextMonth low december c.year
  have within := toDays_withDay c (monthLength c.year c.month)
  have later := toDays_withDay ⟨c.year, c.month + 1, 1⟩ (c.day - monthLength c.year c.month)
  dsimp only at within later
  rw [carried, later, following, within]
  omega

end VisaEligibility.CivilDay
