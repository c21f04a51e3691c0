import Mathlib.Data.Rat.Floor
import VisaEligibility.Calendar.Reading
import VisaEligibility.Proofs.Calendar.Months
import VisaEligibility.Proofs.Number.Counting
import VisaEligibility.Proofs.Number.Sign
/-!
Reading a day that is written with four, two and two digits. Within the ranges of months and days it
is read as it stands, past the end of a month too. Else the loose form may still take it for a month,
a day and a year.
-/
set_option autoImplicit false

namespace VisaEligibility

namespace Number

variable {c d : Char} {cs ds : List Char}

theorem ofDigits_cons (c : Char) (cs : List Char) :
    ofDigits (c :: cs) = digitValue c * 10 ^ cs.length + ofDigits cs := by
  have first : ofDigits [c] = digitValue c := by simp [ofDigits]
  rw [← List.singleton_append, ofDigits_append, first]

theorem digitValue_le (h : c.isDigit = true) : digitValue c ≤ 9 := by
  have range := Text.isDigit_range h
  have value : digitValue c = c.toNat - 48 := rfl
  omega

theorem digitValue_injective (hc : c.isDigit = true) (hd : d.isDigit = true)
    (same : digitValue c = digitValue d) : c = d := by
  have range := Text.isDigit_range hc
  have range' := Text.isDigit_range hd
  have value : digitValue c = c.toNat - 48 := rfl
  have value' : digitValue d = d.toNat - 48 := rfl
  exact Char.toNat_inj.1 (by omega)

theorem ofDigits_lt (h : ∀ c ∈ cs, c.isDigit = true) : ofDigits cs < 10 ^ cs.length := by
  induction cs with
  | nil => decide
  | cons c cs ih =>
    obtain ⟨digit, digits⟩ := List.forall_mem_cons.1 h
    have rest := ih digits
    have most := Nat.mul_le_mul_right (10 ^ cs.length) (digitValue_le digit)
    rw [ofDigits_cons, List.length_cons, Nat.pow_succ]
    omega

theorem ofDigits_injective (hc : ∀ c ∈ cs, c.isDigit = true) (hd : ∀ d ∈ ds, d.isDigit = true)
    (length : cs.length = ds.length) (same : ofDigits cs = ofDigits ds) : cs = ds := by
  induction cs generalizing ds with
  | nil => exact (List.length_eq_zero_iff.1 length.symm).symm
  | cons c cs ih =>
    cases ds with
    | nil => cases length
    | cons d ds =>
      obtain ⟨digit, digits⟩ := List.forall_mem_cons.1 hc
      obtain ⟨digit', digits'⟩ := List.forall_mem_cons.1 hd
      have shorter : cs.length = ds.length := Nat.succ.inj length
      have bound := ofDigits_lt digits
      have bound' := ofDigits_lt digits'
      rw [ofDigits_cons, ofDigits_cons, ← shorter, Nat.mul_comm, Nat.mul_comm (digitValue d)] at same
      rw [← shorter] at bound'
      have positive : 0 < 10 ^ cs.length := Nat.pow_pos (by decide)
      have firsts := congrArg (· / 10 ^ cs.length) same
      have rests := congrArg (· % 10 ^ cs.length) same
      simp only [Nat.mul_add_div positive, Nat.div_eq_of_lt bound,
        Nat.div_eq_of_lt bound', Nat.mul_add_mod, Nat.mod_eq_of_lt bound, Nat.mod_eq_of_lt bound',
        Nat.add_zero] at firsts rests
      rw [digitValue_injective digit digit' firsts, ih digits digits' shorter rests]

end Number

namespace Instant

def midnight (c : CivilDay) : Instant := ofMillis (c.toDays * dayMillis)

theorem isDigit_of_mem_padded {width n : Nat} {c : Char} (hc : c ∈ padded width n) :
    c.isDigit = true := by
  rcases List.mem_append.1 hc with zero | digit
  · rw [List.eq_of_mem_replicate zero]
    rfl
  · exact Nat.isDigit_of_mem_toDigits (by decide) (by decide) digit

theorem padded_ofDigits {cs : List Char} (some : cs ≠ []) (digits : ∀ c ∈ cs, c.isDigit = true) :
    padded cs.length (Number.ofDigits cs) = cs := by
  have length := length_padded (List.length_pos_iff.2 some) (Number.ofDigits_lt digits)
  exact Number.ofDigits_injective (fun _ => isDigit_of_mem_padded) digits length
    (ofDigits_padded ..)

structure Written (c : CivilDay) : Prop where
  year : 0 ≤ c.year ∧ c.year ≤ 9999
  month : c.month ≤ 99
  day : c.day ≤ 99

def InRange (c : CivilDay) : Prop := (1 ≤ c.month ∧ c.month ≤ 12) ∧ 1 ≤ c.day ∧ c.day ≤ 31

instance (c : CivilDay) : Decidable (InRange c) := inferInstanceAs (Decidable (_ ∧ _))

/-! ### Tokens -/

namespace Scan

theorem tokens_number {ds : List Char} (digits : ∀ c ∈ ds, c.isDigit = true) {rest : List Char}
    (ends : ∀ c ∈ rest.head?, c.isDigit = false) (before : List Char) :
    (number before).tokens (ds ++ rest) = .ofDigits (before ++ ds) :: idle.tokens rest := by
  induction ds generalizing before with
  | nil =>
    rw [List.nil_append, List.append_nil]
    cases rest with
    | nil => rfl
    | cons c cs =>
      have other : c.isDigit = false := ends c rfl
      have stops : (number before).next c = restart (number before) c := by simp [next, other]
      rw [tokens, stops]
      rfl
  | cons d ds ih =>
    obtain ⟨digit, digits⟩ := List.forall_mem_cons.1 digits
    have goesOn : (number before).next d = ([], number (before ++ [d])) := by simp [next, digit]
    rw [List.cons_append, tokens, goesOn, List.nil_append, ih digits, List.append_assoc,
      List.singleton_append]

theorem tokens_digits {ds : List Char} (some : ds ≠ []) (digits : ∀ c ∈ ds, c.isDigit = true)
    {rest : List Char} (ends : ∀ c ∈ rest.head?, c.isDigit = false) :
    idle.tokens (ds ++ rest) = .ofDigits ds :: idle.tokens rest := by
  obtain ⟨d, ds, rfl⟩ := List.exists_cons_of_ne_nil some
  obtain ⟨digit, digits⟩ := List.forall_mem_cons.1 digits
  have starts : idle.next d = ([], number [d]) := by simp [next, start, digit]
  rw [List.cons_append, tokens, starts, List.nil_append, tokens_number digits ends]
  rfl

theorem exists_tokens_word (rest before : List Char) :
    ∃ more ts, (word before).tokens rest = .word (.ofChars (before ++ more)) :: ts := by
  induction rest generalizing before with
  | nil => exact ⟨[], [], by rw [List.append_nil]; rfl⟩
  | cons c cs ih =>
    by_cases within : isWordChar c = true
    · obtain ⟨more, ts, read⟩ := ih (before ++ [c])
      have goesOn : (word before).next c = ([], word (before ++ [c])) := by simp [next, within]
      refine ⟨c :: more, ts, ?_⟩
      rw [tokens, goesOn, List.nil_append, read, List.append_assoc, List.singleton_append]
    · have stops : (word before).next c = restart (word before) c := by simp [next, within]
      refine ⟨[], (start c).1 ++ tokens (start c).2 cs, ?_⟩
      rw [tokens, stops, List.append_nil]
      rfl

end Scan

theorem ofDigits_dropWhile (ds : List Char) :
    Number.ofDigits (ds.dropWhile (· = '0')) = Number.ofDigits ds := by
  induction ds with
  | nil => rfl
  | cons d ds ih =>
    by_cases zero : d = '0'
    · subst zero
      rw [Number.ofDigits_cons]
      simp [Number.digitValue, ih]
    · simp [zero]

theorem ofDigits_padded_token {width n : Nat} (positive : 0 < width) (few : width ≤ countedDigits)
    (h : n < 10 ^ width) : Token.ofDigits (padded width n) = .number n width := by
  have length := length_padded positive h
  have all : ((padded width n).dropWhile (· = '0')).length ≤ countedDigits :=
    ((List.dropWhile_sublist _).length_le.trans length.le).trans few
  rw [Token.ofDigits, List.take_of_length_le all, ofDigits_dropWhile, ofDigits_padded, length]

theorem ofChars_time (cs : List Char) :
    Word.ofChars ('T' :: cs) = .time ∨ Word.ofChars ('T' :: cs) = .other := by
  have noMonth : Word.monthNames.findIdx?
      (·.toList = (('T' :: cs).map Char.toLower).take 3) = none := by
    have lower : Char.toLower 'T' = 't' := by decide
    simp [Word.monthNames, lower]
  have named : ∀ s : String, s.toList = 't' :: cs.map Char.toLower →
      Word.ofName s = .time ∨ Word.ofName s = .other := by
    intro s chars
    unfold Word.ofName
    split <;> simp at chars ⊢
  unfold Word.ofChars
  dsimp only
  rw [noMonth]
  exact named _ String.toList_ofList

variable {c : CivilDay}

theorem padded_ne_nil (width n : Nat) : padded width n ≠ [] := by
  obtain ⟨c, cs, hc, -⟩ := exists_padded width n
  simp [hc]

theorem isDigit_or_hyphen_of_mem_dayChars {d : Char} (hd : d ∈ dayChars c) :
    d.isDigit = true ∨ d = '-' := by
  simp only [dayChars, List.mem_append, List.mem_cons] at hd
  rcases hd with (year | rfl | month) | rfl | day
  · exact .inl (isDigit_of_mem_padded year)
  · exact .inr rfl
  · exact .inl (isDigit_of_mem_padded month)
  · exact .inr rfl
  · exact .inl (isDigit_of_mem_padded day)

theorem takeWhile_dayChars (rest : List Char) :
    (dayChars c ++ rest).takeWhile (· ≠ '\x00') = padded 4 c.year.toNat ++
      '-' :: (padded 2 c.month ++ '-' :: (padded 2 c.day ++ rest.takeWhile (· ≠ '\x00'))) := by
  have visible : ∀ d ∈ dayChars c, decide (d ≠ '\x00') = true := by
    intro d hd
    rw [decide_eq_true_iff]
    rintro rfl
    rcases isDigit_or_hyphen_of_mem_dayChars hd with digit | hyphen
    · cases digit
    · cases hyphen
  rw [List.takeWhile_append_of_pos visible]
  simp [dayChars]

theorem not_isDigit_head?_takeWhile {rest : List Char}
    (ends : ∀ c ∈ rest.head?, c.isDigit = false) :
    ∀ c ∈ (rest.takeWhile (· ≠ '\x00')).head?, c.isDigit = false := by
  intro d hd
  cases rest with
  | nil => cases hd
  | cons e es =>
    by_cases null : e = '\x00'
    · simp [null] at hd
    · refine ends d ?_
      simpa [null] using hd

theorem tokens_dayChars (h : Written c) (rest : List Char)
    (ends : ∀ c ∈ rest.head?, c.isDigit = false) :
    tokens (dayChars c ++ rest) =
      [.number c.year.toNat 4, .mark .hyphen, .number c.month 2, .mark .hyphen, .number c.day 2] ++
        tokens rest := by
  obtain ⟨⟨low, high⟩, month, day⟩ := h
  have digits {width n : Nat} : ∀ c ∈ padded width n, c.isDigit = true :=
    fun _ => isDigit_of_mem_padded
  have hyphen (cs : List Char) : Scan.idle.tokens ('-' :: cs) =
      .mark .hyphen :: Scan.idle.tokens cs := rfl
  have years : Token.ofDigits (padded 4 c.year.toNat) = .number c.year.toNat 4 :=
    ofDigits_padded_token (by decide) (by decide) (by omega)
  have months : Token.ofDigits (padded 2 c.month) = .number c.month 2 :=
    ofDigits_padded_token (by decide) (by decide) (by omega)
  have days : Token.ofDigits (padded 2 c.day) = .number c.day 2 :=
    ofDigits_padded_token (by decide) (by decide) (by omega)
  unfold tokens
  rw [takeWhile_dayChars, Scan.tokens_digits (padded_ne_nil 4 _) digits (by simp), hyphen,
    Scan.tokens_digits (padded_ne_nil 2 _) digits (by simp), hyphen,
    Scan.tokens_digits (padded_ne_nil 2 _) digits (not_isDigit_head?_takeWhile ends), years,
    months, days]
  rfl

/-! ### The two forms -/

theorem ofTokens_day (y m d : Nat) (ts : List Token) : Standard.ofTokens
    (.number y 4 :: .mark .hyphen :: .number m 2 :: .mark .hyphen :: .number d 2 :: ts) =
      if 1 ≤ m ∧ m ≤ 12 then
        if 1 ≤ d ∧ d ≤ 31 then Standard.afterDay { days := [y, m, d] } ts
        else .rest { days := [y, m] } (.number d 2 :: ts)
      else .rest { days := [y] } (.number m 2 :: .mark .hyphen :: .number d 2 :: ts) := by
  simp [Standard.ofTokens, Standard.afterYear, Standard.afterMonth]

/-- The start of a day by the clocks of a zone. -/
def startOfDay (zone : Zone) (c : CivilDay) : Instant :=
  ofMillis (c.toDays * dayMillis - zone.offset (c.toDays * dayMillis))

/-- The loose form can take the day for a month, a day and a year. -/
def MonthFirst (c : CivilDay) : Prop := (1 ≤ c.year ∧ c.year ≤ 12) ∧ 1 ≤ c.month ∧ c.month ≤ 31

instance (c : CivilDay) : Decidable (MonthFirst c) := inferInstanceAs (Decidable (_ ∧ _))

def monthFirst (c : CivilDay) : CivilDay := ⟨fullYear c.day, c.year.toNat, c.month⟩

theorem inRange_monthFirst (year : 0 ≤ c.year) : InRange (monthFirst c) ↔ MonthFirst c := by
  have same : ((c.year.toNat : Nat) : Int) = c.year := Int.toNat_of_nonneg year
  unfold InRange MonthFirst monthFirst
  dsimp only
  omega

theorem toDays_bounds (year : 0 ≤ c.year ∧ c.year ≤ 9999) (h : InRange c) :
    -720000 ≤ c.toDays ∧ c.toDays ≤ 2933000 := by
  obtain ⟨⟨low, high⟩, first, last⟩ := h
  have march : 0 ≤ CivilDay.marchMonth c.month ∧ CivilDay.marchMonth c.month ≤ 11 := by
    unfold CivilDay.marchMonth
    split <;> omega
  have years : -1 ≤ c.marchYear ∧ c.marchYear ≤ 9999 := by
    unfold CivilDay.marchYear
    split <;> omega
  rw [CivilDay.toDays_eq]
  unfold CivilDay.marchDay
  omega

theorem clip_startOfDay (year : 0 ≤ c.year ∧ c.year ≤ 9999) (h : InRange c) (zone : Zone) :
    clip (c.toDays * dayMillis - zone.offset (c.toDays * dayMillis)) = startOfDay zone c := by
  obtain ⟨low, high⟩ := toDays_bounds year h
  have ahead := zone.bounded (c.toDays * dayMillis)
  refine if_pos ?_
  unfold dayMillis limit at *
  omega

theorem startOfDay_universal (c : CivilDay) : startOfDay .universal c = midnight c := by
  rw [startOfDay, midnight, Zone.universal, Int.sub_zero]

theorem fullYear_bounds {n : Nat} (h : n ≤ 99) : 0 ≤ fullYear n ∧ fullYear n ≤ 9999 := by
  unfold fullYear
  split
  · omega
  · split <;> omega

theorem civil?_natCast (y : Int) (m d : Nat) :
    Fields.civil? y m d = if InRange ⟨y, m, d⟩ then some ⟨y, m, d⟩ else none := by
  have same : (1 ≤ (m : Int) && (m : Int) ≤ 12 && Fields.isDay d) = true ↔ InRange ⟨y, m, d⟩ := by
    simp only [InRange, Fields.isDay, Bool.and_eq_true, decide_eq_true_eq]
    omega
  simp only [Fields.civil?, same, Int.toNat_natCast]

def standardDay (c : CivilDay) : Fields :=
  { days := [c.year, (c.month : Int), (c.day : Int)], standard := true : Fields }.setOffset 0

def looseDay (c : CivilDay) : Fields :=
  { days := [c.year, (c.month : Int), (c.day : Int)], numbered := true }

theorem instant?_standardDay (year : 0 ≤ c.year ∧ c.year ≤ 9999) (h : InRange c) (zone : Zone) :
    (standardDay c).instant? zone = some (midnight c) := by
  have day : (standardDay c).day? = some c := (civil?_natCast ..).trans (if_pos h)
  have time : (standardDay c).time? = some 0 := rfl
  have seconds : (standardDay c).offsetSeconds? = some 0 := by
    have few : 0 < Number.pow2 31 := Nat.two_pow_pos 31
    simp [Fields.offsetSeconds?, standardDay, Fields.setOffset, few.ne']
  have start := clip_startOfDay year h .universal
  rw [startOfDay_universal] at start
  simp only [Fields.instant?, day, time, seconds, Option.bind_eq_bind, Option.bind_some]
  rw [← start]
  simp [standardDay, Fields.setOffset, Zone.universal]

theorem day?_looseDay (h : Written c) (outside : ¬InRange c) :
    (looseDay c).day? = if MonthFirst c then some (monthFirst c) else none := by
  obtain ⟨⟨low, high⟩, -, -⟩ := h
  have year : ((c.year.toNat : Nat) : Int) = c.year := Int.toNat_of_nonneg low
  have same := inRange_monthFirst low
  have read : (looseDay c).day? =
      if (false || !Fields.isDay c.year) = true then Fields.civil? (fullYear c.year) c.month c.day
      else Fields.civil? (fullYear c.day) c.year c.month := rfl
  rw [read]
  split
  · rename_i first
    have notFirst : ¬MonthFirst c := by
      simp only [Fields.isDay, Bool.false_or, Bool.not_eq_true', Bool.and_eq_false_iff,
        decide_eq_false_iff_not] at first
      unfold MonthFirst
      omega
    rw [if_neg notFirst, civil?_natCast]
    exact if_neg outside
  · rw [← year, civil?_natCast]
    by_cases first : MonthFirst c
    · rw [if_pos first]
      exact if_pos (same.2 first)
    · rw [if_neg first]
      exact if_neg (mt same.1 first)

theorem instant?_looseDay (h : Written c) (outside : ¬InRange c) (zone : Zone) :
    (looseDay c).instant? zone =
      if MonthFirst c then some (startOfDay zone (monthFirst c)) else none := by
  have time : (looseDay c).time? = some 0 := rfl
  simp only [Fields.instant?, day?_looseDay h outside, time, Option.bind_eq_bind]
  split
  · rename_i first
    rw [← clip_startOfDay (fullYear_bounds h.day) ((inRange_monthFirst h.year.1).2 first)]
    simp [looseDay]
  · rfl

theorem ofTokens?_of_outside (h : Written c) (outside : ¬InRange c) {ts : List Token}
    (ends : ts = [] ∨ ∃ w ts', ts = .word w :: ts') (zone : Zone) :
    ofTokens? (.number c.year.toNat 4 :: .mark .hyphen :: .number c.month 2 :: .mark .hyphen ::
      .number c.day 2 :: ts) zone =
        ((looseDay c).loosely true ts).bind fun f => f.instant? zone := by
  have year : ((c.year.toNat : Nat) : Int) = c.year := Int.toNat_of_nonneg h.year.1
  rw [ofTokens?, ofTokens_day, year]
  by_cases inMonths : 1 ≤ c.month ∧ c.month ≤ 12
  · have notInDays : ¬(1 ≤ c.day ∧ c.day ≤ 31) := fun inDays => outside ⟨inMonths, inDays⟩
    rw [if_pos inMonths, if_neg notInDays]
    rcases ends with rfl | ⟨w, ts', rfl⟩ <;> rfl
  · rw [if_neg inMonths]
    rcases ends with rfl | ⟨w, ts', rfl⟩ <;> rfl

theorem ofText_dayChars (h : Written c) (zone : Zone) :
    ofText (String.ofList (dayChars c)) zone =
      if InRange c then midnight c
      else if MonthFirst c then startOfDay zone (monthFirst c) else invalid := by
  have year : ((c.year.toNat : Nat) : Int) = c.year := Int.toNat_of_nonneg h.year.1
  have read := tokens_dayChars h [] nofun
  rw [List.append_nil] at read
  rw [ofText, String.toList_ofList, read]
  split
  · rename_i inRange
    have standard : ofTokens? (.number c.year.toNat 4 :: .mark .hyphen :: .number c.month 2 ::
        .mark .hyphen :: .number c.day 2 :: tokens []) zone = (standardDay c).instant? zone := by
      rw [ofTokens?, ofTokens_day, if_pos inRange.1, if_pos inRange.2, year]
      rfl
    exact congrArg (Option.getD · invalid)
      (standard.trans (instant?_standardDay h.year inRange zone))
  · rename_i outside
    have loose := (ofTokens?_of_outside h outside (.inl rfl) zone).trans
      (instant?_looseDay h outside zone)
    refine (congrArg (Option.getD · invalid) loose).trans ?_
    split <;> rfl

theorem ofText_timed (h : Written c) (outside : ¬InRange c) (rest : List Char) (zone : Zone) :
    ofText (String.ofList (dayChars c ++ 'T' :: rest)) zone = invalid := by
  have read := tokens_dayChars h ('T' :: rest) (by simp)
  obtain ⟨more, ts, word⟩ := Scan.exists_tokens_word (rest.takeWhile (· ≠ '\x00')) ['T']
  have behind : tokens ('T' :: rest) = .word (.ofChars ('T' :: more)) :: ts := word
  rw [ofText, String.toList_ofList, read, behind]
  have loose := ofTokens?_of_outside h outside (.inr ⟨.ofChars ('T' :: more), ts, rfl⟩) zone
  refine (congrArg (Option.getD · invalid) loose).trans ?_
  rcases ofChars_time more with time | other
  · rw [time]
    rfl
  · rw [other]
    rfl

theorem timestamp?_midnight (year : 0 ≤ c.year ∧ c.year ≤ 9999) (h : c.Exists) :
    (midnight c).timestamp? = some (String.ofList (dayChars c) ++ "T00:00:00.000Z") := by
  have whole : (c.toDays * dayMillis).fdiv dayMillis = c.toDays :=
    Int.mul_fdiv_cancel _ (by decide)
  have time : clock (c.toDays * dayMillis) = ⟨0, 0, 0, 0⟩ := by
    rw [clock, Int.mul_fmod_left]
    rfl
  have read := CivilDay.ofDays_toDays h
  have dated : (ofMillis (c.toDays * dayMillis)).HasFourDigitYear := by
    rw [HasFourDigitYear, whole, read]
    exact year
  have written : String.ofList (timeChars ⟨0, 0, 0, 0⟩) = "T00:00:00.000Z" := by decide +kernel
  rw [midnight, timestamp?, timestampChars_of_fourDigitYear dated, whole, read, time,
    String.ofList_append, written]

end Instant
end VisaEligibility
