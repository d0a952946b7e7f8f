import Dosix.Calendar.Basic

/-!
This module contains the correspondence of dates and day numbers, and that of points in time and
numbers of seconds: each number is that of exactly one date, and of one time of day on it.
-/

namespace Calendar

/-! Years. -/

theorem daysBeforeYear_succ (year : Int)
    : daysBeforeYear (year + 1) = daysBeforeYear year + daysInYear year := by
  unfold daysBeforeYear daysInYear isLeap
  simp only [Bool.and_eq_true, Bool.or_eq_true, decide_eq_true_eq]
  split
  . omega
  . omega

theorem daysBeforeYear_mono {year year' : Int} (h : year ≤ year')
    : daysBeforeYear year ≤ daysBeforeYear year' := by
  have : Monotone daysBeforeYear := by
    apply monotone_int_of_le_succ
    intro year
    rw [daysBeforeYear_succ]
    omega
  exact this h

theorem yearOf_spec (n : Int)
    : daysBeforeYear (yearOf n) ≤ n ∧ n < daysBeforeYear (yearOf n + 1) := by
  unfold yearOf
  dsimp only
  generalize hq : n * 400 / 146097 = q
  have hq' : 146097 * q ≤ n * 400 ∧ n * 400 < 146097 * (q + 1) := by omega
  split
  . next h =>
    rw [show 1970 + q - 1 + 1 = 1970 + q by omega]
    refine ⟨?_, h⟩
    unfold daysBeforeYear
    omega
  . split
    . next h =>
      refine ⟨h, ?_⟩
      unfold daysBeforeYear
      omega
    . omega

theorem year_unique {n year year' : Int} (h : daysBeforeYear year ≤ n)
    (h' : n < daysBeforeYear (year' + 1))
    : year ≤ year' := by
  apply Int.not_lt.mp
  intro hlt
  have := daysBeforeYear_mono (show year' + 1 ≤ year from hlt)
  omega

/-! Months. -/

theorem daysInMonth_le (year : Int) (month : Nat) : daysInMonth year month ≤ 31 := by
  unfold daysInMonth
  split
  . split
    all_goals omega
  all_goals omega

theorem daysBeforeMonth_twelve (year : Int) : daysBeforeMonth year 12 = daysInYear year := by
  simp only [daysBeforeMonth, daysInMonth, daysInYear]
  split
  . rfl
  . rfl

theorem daysBeforeMonth_mono (year : Int) {month month' : Nat} (h : month ≤ month')
    : daysBeforeMonth year month ≤ daysBeforeMonth year month' := by
  have : Monotone (daysBeforeMonth year) := by
    apply monotone_nat_of_le_succ
    intro month
    exact Nat.le_add_right _ _
  exact this h

theorem lastMonth_spec {year : Int} {r month : Nat} (h : r < daysBeforeMonth year (month + 1))
    : daysBeforeMonth year (lastMonth year r month) ≤ r
        ∧ r < daysBeforeMonth year (lastMonth year r month + 1)
        ∧ lastMonth year r month ≤ month := by
  induction month with
  | zero => exact ⟨Nat.zero_le r, h, Nat.le_refl 0⟩
  | succ month ih =>
    unfold lastMonth
    split
    . next hle => exact ⟨hle, h, Nat.le_refl _⟩
    . next hlt =>
      obtain ⟨hle, hlt, hmonth⟩ := ih (by omega)
      exact ⟨hle, hlt, by omega⟩

theorem month_unique {year : Int} {r month month' : Nat} (h : daysBeforeMonth year month ≤ r)
    (h' : r < daysBeforeMonth year (month' + 1))
    : month ≤ month' := by
  apply Nat.not_lt.mp
  intro hlt
  have := daysBeforeMonth_mono year (show month' + 1 ≤ month from hlt)
  omega

/-! Dates. -/

namespace Date

theorem ext_fields {d d' : Date} (hyear : d.year = d'.year) (hmonth : d.month = d'.month)
    (hday : d.day = d'.day)
    : d = d' := by
  cases d
  cases d'
  simp_all

theorem dayOfYear_lt (d : Date)
    : daysBeforeMonth d.year d.month + d.day ≤ daysBeforeMonth d.year (d.month + 1)
        ∧ daysBeforeMonth d.year (d.month + 1) ≤ daysInYear d.year := by
  constructor
  . exact Nat.add_le_add_left d.day_le _
  . rw [← daysBeforeMonth_twelve]
    exact daysBeforeMonth_mono _ d.month_lt

theorem dayNumber_inYear (d : Date)
    : daysBeforeYear d.year ≤ d.dayNumber ∧ d.dayNumber < daysBeforeYear (d.year + 1) := by
  obtain ⟨hmonth, hyear⟩ := d.dayOfYear_lt
  have := d.day_pos
  rw [daysBeforeYear_succ]
  unfold dayNumber
  omega

theorem dayNumber_injective {d d' : Date} (h : d.dayNumber = d'.dayNumber) : d = d' := by
  have hyear : d.year = d'.year := by
    obtain ⟨hle, hlt⟩ := d.dayNumber_inYear
    obtain ⟨hle', hlt'⟩ := d'.dayNumber_inYear
    rw [h] at hle hlt
    exact Int.le_antisymm (year_unique hle hlt') (year_unique hle' hlt)
  have hpos := d.day_pos
  have hpos' := d'.day_pos
  have hday : daysBeforeMonth d.year d.month + d.day = daysBeforeMonth d.year d'.month + d'.day := by
    unfold dayNumber at h
    rw [hyear] at h ⊢
    omega
  have hmonth : d.month = d'.month := by
    have hlt := d.dayOfYear_lt.1
    have hlt' := d'.dayOfYear_lt.1
    rw [← hyear] at hlt'
    have hle : daysBeforeMonth d.year d.month ≤ daysBeforeMonth d.year d.month + d.day - 1 := by
      omega
    have hle' : daysBeforeMonth d.year d'.month ≤ daysBeforeMonth d.year d.month + d.day - 1 := by
      omega
    exact Nat.le_antisymm (month_unique hle (by omega)) (month_unique hle' (by omega))
  apply ext_fields hyear hmonth
  rw [hmonth] at hday
  omega

/--
The order of the dates, by the year, the month and the day.
-/
def Before (d d' : Date) : Prop :=
  d.year < d'.year
    ∨ d.year = d'.year ∧ (d.month < d'.month ∨ d.month = d'.month ∧ d.day < d'.day)

theorem before_of_dayNumber_lt {d d' : Date} (h : d.dayNumber < d'.dayNumber) : d.Before d' := by
  have hyear : d.year ≤ d'.year := by
    apply year_unique (n := d.dayNumber)
    . exact d.dayNumber_inYear.1
    . exact h.trans d'.dayNumber_inYear.2
  obtain hyear | hyear := Int.lt_or_eq_of_le hyear
  . exact .inl hyear
  . refine .inr ⟨hyear, ?_⟩
    have hpos := d.day_pos
    have hlt := d'.dayOfYear_lt.1
    unfold dayNumber at h
    rw [← hyear] at h hlt
    have hmonth : d.month ≤ d'.month := by
      have hle : daysBeforeMonth d.year d.month ≤ daysBeforeMonth d.year d.month + d.day - 1 := by
        omega
      exact month_unique hle (by omega)
    obtain hmonth | hmonth := Nat.lt_or_eq_of_le hmonth
    . exact .inl hmonth
    . rw [hmonth] at h
      exact .inr ⟨hmonth, by omega⟩

def dayOfYear (n : Int) : Nat :=
  (n - daysBeforeYear (yearOf n)).toNat

theorem lastMonth_dayOfYear (n : Int)
    : daysBeforeMonth (yearOf n) (lastMonth (yearOf n) (dayOfYear n) 11) ≤ dayOfYear n
        ∧ dayOfYear n < daysBeforeMonth (yearOf n) (lastMonth (yearOf n) (dayOfYear n) 11 + 1)
        ∧ lastMonth (yearOf n) (dayOfYear n) 11 ≤ 11 := by
  apply lastMonth_spec
  have := yearOf_spec n
  rw [daysBeforeYear_succ, ← daysBeforeMonth_twelve] at this
  change _ < daysBeforeMonth (yearOf n) 12
  unfold dayOfYear
  omega

def ofDayNumber (n : Int) : Date where
  year := yearOf n
  month := lastMonth (yearOf n) (dayOfYear n) 11
  day := dayOfYear n - daysBeforeMonth (yearOf n) (lastMonth (yearOf n) (dayOfYear n) 11) + 1
  month_lt := by
    have := lastMonth_dayOfYear n
    omega
  day_pos := by omega
  day_le := by
    obtain ⟨hle, hlt, -⟩ := lastMonth_dayOfYear n
    rw [daysBeforeMonth] at hlt
    omega

theorem day_le_31 (d : Date) : d.day ≤ 31 :=
  d.day_le.trans (daysInMonth_le d.year d.month)

@[simp]
theorem dayNumber_ofDayNumber (n : Int) : (ofDayNumber n).dayNumber = n := by
  have hyear := yearOf_spec n
  have hmonth := (lastMonth_dayOfYear n).1
  have hday : dayOfYear n = n - daysBeforeYear (yearOf n) := by
    unfold dayOfYear
    omega
  unfold ofDayNumber dayNumber
  dsimp only
  omega

@[simp]
theorem ofDayNumber_dayNumber (d : Date) : ofDayNumber d.dayNumber = d :=
  dayNumber_injective (dayNumber_ofDayNumber d.dayNumber)

end Date

/-! Points in time. -/

namespace Clock

theorem ext_fields {c c' : Clock} (hhour : c.hour = c'.hour) (hminute : c.minute = c'.minute)
    (hsecond : c.second = c'.second)
    : c = c' := by
  cases c
  cases c'
  simp_all

theorem secondNumber_lt (c : Clock) : c.secondNumber < 86400 := by
  have := c.hour_lt
  have := c.minute_lt
  have := c.second_lt
  unfold secondNumber
  omega

theorem secondNumber_ofSecondNumber {n : Nat} (h : n < 86400)
    : (ofSecondNumber n).secondNumber = n := by
  unfold secondNumber ofSecondNumber
  dsimp only
  omega

@[simp]
theorem ofSecondNumber_secondNumber (c : Clock) : ofSecondNumber c.secondNumber = c := by
  have := c.hour_lt
  have := c.minute_lt
  have := c.second_lt
  apply ext_fields
  all_goals
    unfold ofSecondNumber secondNumber
    dsimp only
    omega

end Clock

def dateOf (t : Int) : Date :=
  .ofDayNumber (t / 86400)

def clockOf (t : Int) : Clock :=
  .ofSecondNumber (t % 86400).toNat

theorem secondNumber_clockOf (t : Int) : ((clockOf t).secondNumber : Int) = t % 86400 := by
  unfold clockOf
  rw [Clock.secondNumber_ofSecondNumber]
  . omega
  . omega

theorem timestamp_dateOf_clockOf (t : Int) : timestamp (dateOf t) (clockOf t) = t := by
  unfold timestamp
  rw [secondNumber_clockOf]
  unfold dateOf
  rw [Date.dayNumber_ofDayNumber]
  omega

@[simp]
theorem dateOf_timestamp (d : Date) (c : Clock) : dateOf (timestamp d c) = d := by
  have := c.secondNumber_lt
  have hday : timestamp d c / 86400 = d.dayNumber := by
    unfold timestamp
    omega
  unfold dateOf
  rw [hday, Date.ofDayNumber_dayNumber]

@[simp]
theorem clockOf_timestamp (d : Date) (c : Clock) : clockOf (timestamp d c) = c := by
  have := c.secondNumber_lt
  have hsecond : (timestamp d c % 86400).toNat = c.secondNumber := by
    unfold timestamp
    omega
  unfold clockOf
  rw [hsecond, Clock.ofSecondNumber_secondNumber]

theorem dateOf_before {t t' : Int} (h : t / 86400 < t' / 86400) : (dateOf t).Before (dateOf t') := by
  apply Date.before_of_dayNumber_lt
  unfold dateOf
  rwa [Date.dayNumber_ofDayNumber, Date.dayNumber_ofDayNumber]

theorem normalized_eq_timestamp (d : Date) (c : Clock)
    : normalized d.year d.month d.day c.hour c.minute c.second = timestamp d c := by
  have := d.month_lt
  have hyear : d.year + (d.month : Int) / 12 = d.year := by omega
  have hmonth : ((d.month : Int) % 12).toNat = d.month := by omega
  unfold normalized timestamp Date.dayNumber Clock.secondNumber
  rw [hyear, hmonth]
  omega

end Calendar
