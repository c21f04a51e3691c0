import VisaEligibility.Proofs.Number.Rounding
/-!
The order of numbers: it is total apart from `nan`, and the smaller of two numbers is at most each.
-/
set_option autoImplicit false

namespace VisaEligibility.Number

theorem order?_of_isFinite {x y : Number} (hx : x.isFinite = true) (hy : y.isFinite = true) :
    x.order? y =
      some (if x.value < y.value then .lt else if x.value = y.value then .eq else .gt) := by
  cases x with
  | nan => cases hx
  | infinite s => cases hx
  | _ =>
    cases y with
    | nan => cases hy
    | infinite t => cases hy
    | _ => rfl

theorem exists_order? {x y : Number} (hx : x.isFinite = true) (hy : y.isFinite = true) :
    ∃ o, x.order? y = some o ∧ y.order? x = some o.swap := by
  refine ⟨_, order?_of_isFinite hx hy, ?_⟩
  rw [order?_of_isFinite hy hx]
  rcases lt_trichotomy x.value y.value with less | same | more
  · simp [less, less.not_gt, less.ne']
  · simp [same]
  · simp [more, more.not_gt, more.ne']

theorem lt_iff {x y : Number} : x.lt y = true ↔ x ≠ nan ∧ y ≠ nan ∧ y.le x = false := by
  have ordered (p q : Rat) : (some (if p < q then Ordering.lt else if p = q then .eq else .gt) ==
      some .lt) = true ↔ ¬q ≤ p := by
    rcases lt_trichotomy p q with less | same | more
    · simp [less]
    · simp [same]
    · simp [more.le, more.not_gt, more.ne']
  cases x with
  | nan => cases y <;> simp [lt, order?]
  | infinite s =>
    cases y with
    | nan => simp [lt, order?]
    | infinite t => cases s <;> cases t <;> decide
    | negativeZero => cases s <;> decide
    | finite b => cases s <;> simp [le, lt, order?]
  | negativeZero =>
    cases y with
    | nan => simp [lt, order?]
    | infinite t => cases t <;> decide
    | negativeZero => decide
    | finite b =>
      refine (ordered 0 b).trans ?_
      rw [← Bool.not_eq_true, le_iff]
      simp [isFinite, value]
  | finite a =>
    cases y with
    | nan => simp [lt, order?]
    | infinite t => cases t <;> simp [le, lt, order?]
    | negativeZero =>
      refine (ordered a 0).trans ?_
      rw [← Bool.not_eq_true, le_iff]
      simp [isFinite, value]
    | finite b =>
      refine (ordered a b).trans ?_
      rw [← Bool.not_eq_true, le_iff]
      simp [isFinite, value]

theorem lt_nan (x : Number) : x.lt nan = false := by cases x <;> rfl

theorem le_of_not_lt {x y : Number} (hx : x ≠ nan) (hy : y ≠ nan) (h : x.lt y = false) :
    y.le x = true := by
  by_contra le
  rw [Bool.not_eq_true] at le
  cases h.symm.trans (lt_iff.2 ⟨hx, hy, le⟩)

theorem not_lt_iff {x y : Number} (hx : x ≠ nan) (hy : y ≠ nan) :
    x.lt y = false ↔ y.le x = true := by
  constructor
  · exact le_of_not_lt hx hy
  · intro below
    by_contra less
    rw [Bool.not_eq_false] at less
    cases below.symm.trans (lt_iff.1 less).2.2

theorem nearest_ne_nan (q : Rat) : nearest q ≠ nan := by
  have signed_ne_nan (negative : Bool) (magnitude : Rat) : signed negative magnitude ≠ nan := by
    cases negative <;> simp [signed, zero, apply_ite (· ≠ nan)]
  simp only [nearest]
  split
  · simp
  · exact signed_ne_nan _ _

theorem ofNat_ne_nan (n : Nat) : (OfNat.ofNat n : Number) ≠ nan := by
  rintro ⟨⟩

theorem lt_of_le_of_lt {x y z : Number} (hxy : x.le y = true) (hyz : y.lt z = true) :
    x.lt z = true := by
  obtain ⟨-, hz, above⟩ := lt_iff.1 hyz
  refine lt_iff.2 ⟨(le_iff.1 hxy).1, hz, ?_⟩
  by_contra below
  rw [Bool.not_eq_false] at below
  cases above.symm.trans (le_trans below hxy)

theorem eq_nan_of_isNaN {x : Number} (h : x.isNaN = true) : x = nan := by
  cases x <;> first | rfl | cases h

theorem lt_of_lt_of_le {x y z : Number} (hxy : x.lt y = true) (hyz : y.le z = true) :
    x.lt z = true := by
  obtain ⟨hx, -, above⟩ := lt_iff.1 hxy
  refine lt_iff.2 ⟨hx, (le_iff.1 hyz).2.1, ?_⟩
  by_contra below
  rw [Bool.not_eq_false] at below
  cases above.symm.trans (le_trans hyz below)

theorem lt_irrefl (x : Number) : x.lt x = false := by
  by_contra less
  rw [Bool.not_eq_false] at less
  obtain ⟨hx, -, above⟩ := lt_iff.1 less
  simp [le, less] at above

theorem le_refl {x : Number} (hx : x ≠ nan) : x.le x = true := le_of_not_lt hx hx (lt_irrefl x)

theorem least_of_ne_nan {x y : Number} (hx : x ≠ nan) (hy : y ≠ nan) :
    x.least y = if y.lt x then y else x := by
  have known : (x.isNaN || y.isNaN) = false := by
    rw [Bool.or_eq_false_iff, ← Bool.not_eq_true, ← Bool.not_eq_true]
    exact ⟨mt eq_nan_of_isNaN hx, mt eq_nan_of_isNaN hy⟩
  unfold least
  rw [known, if_neg Bool.false_ne_true]

theorem least_le {x y : Number} (hx : x ≠ nan) (hy : y ≠ nan) :
    (x.least y).le x = true ∧ (x.least y).le y = true := by
  rw [least_of_ne_nan hx hy]
  cases below : y.lt x with
  | true =>
    refine ⟨?_, le_refl hy⟩
    rw [if_pos rfl, le, below]
    rfl
  | false => exact ⟨le_refl hx, le_of_not_lt hy hx below⟩

theorem least_eq {x y : Number} (hx : x ≠ nan) (hy : y ≠ nan) :
    x.least y = x ∨ x.least y = y := by
  rw [least_of_ne_nan hx hy]
  split
  · exact .inr rfl
  · exact .inl rfl

theorem least_finite (a b : Rat) : (finite a).least (finite b) = finite (min a b) := by
  rw [least_of_ne_nan (x := finite a) (y := finite b) nofun nofun]
  by_cases below : b < a
  · have less : (finite b).lt (finite a) = true := by
      rw [lt_iff, ← Bool.not_eq_true, le_finite]
      exact ⟨nofun, nofun, not_le.2 below⟩
    rw [if_pos less, min_eq_right below.le]
  · have not_less : ¬(finite b).lt (finite a) = true := by
      rw [lt_iff, ← Bool.not_eq_true, le_finite]
      exact fun less => less.2.2 (not_lt.1 below)
    rw [if_neg not_less, min_eq_left (not_lt.1 below)]

theorem not_lt_least {x y c : Number} (h : c.lt y = false) : c.lt (x.least y) = false := by
  by_cases known : x = nan ∨ y = nan
  · have none : x.least y = nan := by
      rcases known with rfl | rfl
      · rfl
      · cases x <;> rfl
    rw [none]
    exact lt_nan c
  · obtain ⟨hx, hy⟩ := not_or.1 known
    by_contra above
    rw [Bool.not_eq_false] at above
    cases h.symm.trans (lt_of_lt_of_le above (least_le hx hy).2)

theorem least_self (x : Number) : x.least x = x := by
  unfold least
  split
  · rename_i known
    rw [Bool.or_self] at known
    exact (eq_nan_of_isNaN known).symm
  · split <;> rfl

theorem lt_natCast (d : Nat) {n : Nat} (small : n ≤ 2 ^ 53) :
    (finite d).lt (n : Number) = decide (d < n) := by
  have exact : (n : Number) = finite n := nearest_natCast_of_le small
  rw [exact, Bool.eq_iff_iff, decide_eq_true_iff, lt_iff, ← Bool.not_eq_true, le_finite,
    Nat.cast_le]
  simp

end VisaEligibility.Number
