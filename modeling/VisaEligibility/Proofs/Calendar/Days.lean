import VisaEligibility.Calendar.Timestamp
import VisaEligibility.Proofs.Number.Numeral
/-!
Days and their written form. A day of the calendar stands for one number of days and is read back
from it; the day of a timestamp with a year of four digits tells the days apart.
-/
set_option autoImplicit false

namespace VisaEligibility

namespace CivilDay

/-- The year of a cycle of 400 years that a day of the cycle lies in, from 1 March on. -/
def yearOfEra (day : Int) : Int := (day - day / 1460 + day / 36524 - day / 146096) / 365

def dayOfYear (day : Int) : Int :=
  day - (365 * yearOfEra day + yearOfEra day / 4 - yearOfEra day / 100)

theorem yearOfEra_bounds {day : Int} (low : 0 ≤ day) (high : day < 146097) :
    0 ≤ yearOfEra day ∧ yearOfEra day < 400 := by
  unfold yearOfEra
  omega

theorem dayOfYear_bounds {day : Int} (low : 0 ≤ day) (high : day < 146097) :
    0 ≤ dayOfYear day ∧ dayOfYear day ≤ 365 := by
  have years : yearOfEra day = (day - day / 1460 + day / 36524 - day / 146096) / 365 := rfl
  have bounds := yearOfEra_bounds low high
  unfold dayOfYear
  generalize yearOfEra day = year at years bounds ⊢
  have centuries : day / 36524 = 0 ∨ day / 36524 = 1 ∨ day / 36524 = 2 ∨ day / 36524 = 3 ∨
      day / 36524 = 4 := by omega
  have centuries' : year / 100 = 0 ∨ year / 100 = 1 ∨ year / 100 = 2 ∨ year / 100 = 3 := by omega
  rcases centuries with h | h | h | h | h <;> rcases centuries' with h' | h' | h' | h' <;> omega

/-- The day of the calendar at a day of a year from 1 March on, in a cycle of 400 years. -/
def ofMarch (era year day : Int) : CivilDay :=
  let shifted := (5 * day + 2) / 153
  let month := if shifted < 10 then shifted + 3 else shifted - 9
  { year := year + era * 400 + (if month ≤ 2 then 1 else 0)
    month := month.toNat
    day := (day - (153 * shifted + 2) / 5 + 1).toNat }

theorem ofDays_eq (days : Int) : ofDays days =
    ofMarch ((days + 719468) / 146097) (yearOfEra ((days + 719468) % 146097))
      (dayOfYear ((days + 719468) % 146097)) := by
  have cycle : days + 719468 - (days + 719468) / 146097 * 146097 = (days + 719468) % 146097 := by
    omega
  simp (disch := decide) only [ofDays, Int.fdiv_eq_ediv_of_nonneg, cycle]
  rfl

variable {era year day : Int}

theorem ofMarch_month (low : 0 ≤ day) (high : day ≤ 365) :
    (ofMarch era year day).month ≤ 12 := by
  simp only [ofMarch]
  split <;> omega

theorem ofMarch_day : (ofMarch era year day).day ≤ 31 := by
  simp only [ofMarch]
  omega

theorem ofMarch_eq (low : 0 ≤ day) (high : day ≤ 365) :
    ∃ shifted : Int, shifted = (5 * day + 2) / 153 ∧
      (shifted < 10 ∧ ofMarch era year day = ⟨year + era * 400, (shifted + 3).toNat,
          (day - (153 * shifted + 2) / 5 + 1).toNat⟩ ∨
        10 ≤ shifted ∧ ofMarch era year day = ⟨year + era * 400 + 1, (shifted - 9).toNat,
          (day - (153 * shifted + 2) / 5 + 1).toNat⟩) := by
  refine ⟨_, rfl, ?_⟩
  rcases Int.lt_or_le ((5 * day + 2) / 153) 10 with early | late
  · have month : ¬(5 * day + 2) / 153 + 3 ≤ 2 := by omega
    exact .inl ⟨early, by simp [ofMarch, early, month]⟩
  · have month : (5 * day + 2) / 153 - 9 ≤ 2 := by omega
    exact .inr ⟨late, by simp [ofMarch, Int.not_lt.2 late, month]⟩

theorem toDays_ofMarch (years : 0 ≤ year ∧ year < 400) (low : 0 ≤ day) (high : day ≤ 365) :
    (ofMarch era year day).toDays =
      era * 146097 + (year * 365 + year / 4 - year / 100 + day) - 719468 := by
  have cycle : (year + era * 400) / 400 = era := by omega
  have inCycle : year + era * 400 - era * 400 = year := by omega
  obtain ⟨shifted, hs, ⟨early, he⟩ | ⟨late, he⟩⟩ := @ofMarch_eq era year day low high
  · have month : ¬(shifted + 3).toNat ≤ 2 := by omega
    rw [he]
    simp (disch := decide) only [toDays, Int.fdiv_eq_ediv_of_nonneg, if_neg month,
      if_pos (Nat.not_le.1 month), gt_iff_lt, cycle, inCycle]
    omega
  · have month : (shifted - 9).toNat ≤ 2 := by omega
    rw [he]
    simp (disch := decide) only [toDays, Int.fdiv_eq_ediv_of_nonneg, if_pos month,
      if_neg (Nat.not_lt.2 month), gt_iff_lt, Int.add_sub_cancel, cycle, inCycle]
    omega

theorem toDays_ofDays (days : Int) : (ofDays days).toDays = days := by
  obtain ⟨day, hd⟩ : ∃ day, day = (days + 719468) % 146097 := ⟨_, rfl⟩
  have low : 0 ≤ day := by omega
  have high : day < 146097 := by omega
  obtain ⟨first, last⟩ := dayOfYear_bounds low high
  have counted : dayOfYear day =
    day - (365 * yearOfEra day + yearOfEra day / 4 - yearOfEra day / 100) := rfl
  rw [ofDays_eq, ← hd, toDays_ofMarch (yearOfEra_bounds low high) first last]
  omega

theorem ofDays_month (days : Int) : (ofDays days).month ≤ 12 := by
  have low : 0 ≤ (days + 719468) % 146097 := by omega
  have high : (days + 719468) % 146097 < 146097 := by omega
  obtain ⟨first, last⟩ := dayOfYear_bounds low high
  rw [ofDays_eq]
  exact ofMarch_month first last

theorem ofDays_day (days : Int) : (ofDays days).day ≤ 31 := by
  rw [ofDays_eq]
  exact ofMarch_day

end CivilDay

namespace Number

theorem ofDigits_digits (n : Nat) : ofDigits (digits n) = n :=
  Nat.ofDigitChars_toDigits (by decide) (by decide)

theorem ofDigits_zeros (n : Nat) : ofDigits (zeros n) = 0 := by
  induction n with
  | zero => rfl
  | succ n ih => exact ih

end Number

namespace Instant

theorem ofDigits_padded (width n : Nat) : Number.ofDigits (padded width n) = n := by
  rw [padded, Number.ofDigits_append, Number.ofDigits_zeros, Number.ofDigits_digits, Nat.zero_mul,
    Nat.zero_add]

theorem exists_padded (width n : Nat) : ∃ c cs, padded width n = c :: cs ∧ c.isDigit = true := by
  have nonempty : padded width n ≠ [] := by
    have some : 0 < (Number.digits n).length := Nat.length_toDigits_pos
    exact List.append_ne_nil_of_right_ne_nil _ (List.length_pos_iff.1 some)
  obtain ⟨c, cs, hc⟩ := List.exists_cons_of_ne_nil nonempty
  refine ⟨c, cs, hc, ?_⟩
  have hm : c ∈ padded width n := by simp [hc]
  rcases List.mem_append.1 hm with zero | digit
  · rw [List.eq_of_mem_replicate zero]
    rfl
  · exact Nat.isDigit_of_mem_toDigits (by decide) (by decide) digit

theorem length_padded {width n : Nat} (some : 0 < width) (h : n < 10 ^ width) :
    (padded width n).length = width := by
  have fits : (Number.digits n).length ≤ width :=
    (Nat.length_toDigits_le_iff (by decide) some).2 h
  simp only [padded, Number.zeros, List.length_append, List.length_replicate]
  omega

theorem le_length_padded (width n : Nat) : width ≤ (padded width n).length := by
  simp only [padded, Number.zeros, List.length_append, List.length_replicate]
  omega

def dayChars (c : CivilDay) : List Char :=
  padded 4 c.year.toNat ++ '-' :: padded 2 c.month ++ '-' :: padded 2 c.day

def timeChars (t : Clock) : List Char :=
  'T' :: padded 2 t.hour ++ ':' :: padded 2 t.minute ++ ':' :: padded 2 t.second ++
    '.' :: padded 3 t.millis ++ ['Z']

def dayNumber? : Instant → Option Int
  | invalid => none
  | ofMillis ms => some (ms.fdiv dayMillis)

def HasFourDigitYear : Instant → Prop
  | invalid => False
  | ofMillis ms => 0 ≤ (CivilDay.ofDays (ms.fdiv dayMillis)).year ∧
      (CivilDay.ofDays (ms.fdiv dayMillis)).year ≤ 9999

section

variable {c c' : CivilDay}

theorem length_year (h : c.year ≤ 9999) : (padded 4 c.year.toNat).length = 4 :=
  length_padded (by decide) (by omega)

theorem length_month (h : c.month ≤ 12) : (padded 2 c.month).length = 2 :=
  length_padded (by decide) (by omega)

theorem length_dayChars (year : c.year ≤ 9999) (month : c.month ≤ 12) (day : c.day ≤ 31) :
    (dayChars c).length = 10 := by
  have days : (padded 2 c.day).length = 2 := length_padded (by decide) (by omega)
  simp [dayChars, length_year year, length_month month, days]

theorem padded_injective {width n m : Nat} (h : padded width n = padded width m) : n = m := by
  rw [← ofDigits_padded width n, h, ofDigits_padded]

theorem dayChars_injective (year : 0 ≤ c.year ∧ c.year ≤ 9999)
    (year' : 0 ≤ c'.year ∧ c'.year ≤ 9999) (month : c.month ≤ 12) (month' : c'.month ≤ 12)
    (h : dayChars c = dayChars c') : c = c' := by
  obtain ⟨dated, days⟩ := List.append_inj h
    (by simp [length_year year.2, length_year year'.2, length_month month, length_month month'])
  obtain ⟨years, months⟩ := List.append_inj dated (by rw [length_year year.2, length_year year'.2])
  have years : c.year.toNat = c'.year.toNat := padded_injective years
  have years : c.year = c'.year := by omega
  have months := padded_injective (List.cons.inj months).2
  have days := padded_injective (List.cons.inj days).2
  cases c
  cases c'
  rw [CivilDay.mk.injEq]
  exact ⟨years, months, days⟩

end

theorem timestampChars_of_fourDigitYear {ms : Int} (h : (ofMillis ms).HasFourDigitYear) :
    timestampChars ms = dayChars (CivilDay.ofDays (ms.fdiv dayMillis)) ++ timeChars (clock ms) := by
  simp only [timestampChars, yearText, h.1, h.2, dayChars, timeChars, List.append_assoc]
  rfl

theorem day?_of_fourDigitYear {ms : Int} (h : (ofMillis ms).HasFourDigitYear) :
    day? (ofMillis ms) = some (String.ofList (dayChars (CivilDay.ofDays (ms.fdiv dayMillis)))) := by
  have length := length_dayChars h.2 (CivilDay.ofDays_month (ms.fdiv dayMillis))
    (CivilDay.ofDays_day (ms.fdiv dayMillis))
  rw [day?, timestampChars_of_fourDigitYear h, List.take_left' length]

theorem fourDigitYear_of_day? {d : Instant} {c : CivilDay}
    (h : d.day? = some (String.ofList (dayChars c))) : d.HasFourDigitYear := by
  cases d with
  | invalid => cases h
  | ofMillis ms =>
    unfold HasFourDigitYear
    by_contra outside
    have signed : ∃ rest, (timestampChars ms).take 10 =
        (if (CivilDay.ofDays (ms.fdiv dayMillis)).year < 0 then '-' else '+') :: rest := by
      simp only [timestampChars, yearText, Bool.and_eq_true, decide_eq_true_eq, if_neg outside]
      exact ⟨_, rfl⟩
    obtain ⟨rest, signed⟩ := signed
    obtain ⟨f, fs, hf, digit⟩ := exists_padded 4 c.year.toNat
    have written := String.ofList_injective (Option.some.inj h)
    rw [signed, dayChars, hf] at written
    rw [← (List.cons.inj written).1] at digit
    split at digit <;> cases digit

/-- Days of a year of four digits are written alike only if they are the same. -/
theorem day?_eq_iff {d e : Instant} (hd : d.HasFourDigitYear) :
    e.day? = d.day? ↔ e.dayNumber? = d.dayNumber? := by
  cases d with
  | invalid => cases hd
  | ofMillis ms =>
    constructor
    · intro h
      rw [day?_of_fourDigitYear hd] at h
      have he := fourDigitYear_of_day? h
      cases e with
      | invalid => cases h
      | ofMillis ms' =>
        rw [day?_of_fourDigitYear he] at h
        have written := String.ofList_injective (Option.some.inj h)
        have same := dayChars_injective he hd (CivilDay.ofDays_month _) (CivilDay.ofDays_month _)
          written
        rw [dayNumber?, dayNumber?, ← CivilDay.toDays_ofDays (ms'.fdiv dayMillis), same,
          CivilDay.toDays_ofDays]
    · intro h
      cases e with
      | invalid => cases h
      | ofMillis ms' =>
        have same : ms'.fdiv dayMillis = ms.fdiv dayMillis := Option.some.inj h
        have he : (ofMillis ms').HasFourDigitYear := by
          simp only [HasFourDigitYear, same]
          exact hd
        rw [day?_of_fourDigitYear he, day?_of_fourDigitYear hd, same]

theorem length_day? {d : Instant} {day : String} (h : d.day? = some day) :
    day.toList.length = 10 := by
  cases d with
  | invalid => cases h
  | ofMillis ms =>
    have year : 4 ≤ (yearText (CivilDay.ofDays (ms.fdiv dayMillis)).year).length := by
      unfold yearText
      split
      · exact le_length_padded 4 _
      · exact Nat.le_trans (by decide) (Nat.le_succ_of_le (le_length_padded 6 _))
    have month := le_length_padded 2 (CivilDay.ofDays (ms.fdiv dayMillis)).month
    have days := le_length_padded 2 (CivilDay.ofDays (ms.fdiv dayMillis)).day
    rw [← Option.some.inj h, String.toList_ofList, List.length_take, Nat.min_eq_left]
    simp only [timestampChars, List.length_append, List.length_cons]
    omega

end Instant
end VisaEligibility
