import Mathlib.Algebra.Order.Group.Nat
import Mathlib.Data.Int.Order.Basic

/-!
# The proleptic Gregorian calendar

Days are numbered from 1 January 1970, years and days run through the integers. A date is a
year, a month and a day within the lengths of the calendar, so every date is the name of
exactly one day, and dates are ordered as their days are.
-/

namespace Lib.Calendar

/-! ## Years -/

/-- A leap year has a 29 February. -/
def isLeap (y : ℤ) : Bool := decide (y % 4 = 0 ∧ (y % 100 ≠ 0 ∨ y % 400 = 0))

/-- The number of days before 1 January of a year. -/
def daysBeforeYear (y : ℤ) : ℤ :=
  365 * (y - 1970) + (y - 1969) / 4 - (y - 1901) / 100 + (y - 1601) / 400

/-- The number of days of a year. -/
def yearLength (y : ℤ) : ℤ := if isLeap y then 366 else 365

theorem daysBeforeYear_add_one (y : ℤ) :
    daysBeforeYear (y + 1) = daysBeforeYear y + yearLength y := by
  unfold daysBeforeYear yearLength isLeap
  split
  · next h =>
    have h' := of_decide_eq_true h
    omega
  · next h =>
    have h' : ¬ (y % 4 = 0 ∧ (y % 100 ≠ 0 ∨ y % 400 = 0)) := fun hp => h (decide_eq_true hp)
    omega

theorem daysBeforeYear_le {y y' : ℤ} (h : y ≤ y') : daysBeforeYear y ≤ daysBeforeYear y' := by
  unfold daysBeforeYear
  omega

/-- The year of a day: the one of an average year, or a neighbour of it. -/
def yearOf (d : ℤ) : ℤ :=
  let y := 1970 + 400 * d / 146097
  if d < daysBeforeYear y then y - 1
  else if daysBeforeYear (y + 1) ≤ d then y + 1
  else y

/-- A day lies in its year. -/
theorem daysBeforeYear_yearOf (d : ℤ) :
    daysBeforeYear (yearOf d) ≤ d ∧ d < daysBeforeYear (yearOf d + 1) := by
  unfold yearOf
  dsimp only
  split
  · next h =>
    refine ⟨?_, by rwa [Int.sub_add_cancel]⟩
    unfold daysBeforeYear at h ⊢
    omega
  · split
    · next h =>
      refine ⟨h, ?_⟩
      unfold daysBeforeYear at h ⊢
      omega
    · omega

/-- No other year contains it. -/
theorem yearOf_eq {d y : ℤ} (h : daysBeforeYear y ≤ d) (h' : d < daysBeforeYear (y + 1)) :
    yearOf d = y := by
  obtain ⟨hle, hlt⟩ := daysBeforeYear_yearOf d
  rcases lt_trichotomy (yearOf d) y with hy | hy | hy
  · have := daysBeforeYear_le (Int.add_one_le_of_lt hy)
    omega
  · exact hy
  · have := daysBeforeYear_le (Int.add_one_le_of_lt hy)
    omega

/-! ## Months -/

/-- The number of days before a month of a year; the months are numbered from 0. -/
def daysBeforeMonth (leap : Bool) (m : ℕ) : ℕ :=
  [0, 31, 59, 90, 120, 151, 181, 212, 243, 273, 304, 334].getD m 365 +
    if leap ∧ 2 ≤ m then 1 else 0

/-- The number of days of a month. -/
def monthLength (leap : Bool) (m : ℕ) : ℕ := daysBeforeMonth leap (m + 1) - daysBeforeMonth leap m

/-- The month of the `n`th day of a year: how many months end before it. -/
def monthOf (leap : Bool) (n : ℕ) : ℕ :=
  (List.range 11).countP fun m => daysBeforeMonth leap (m + 1) ≤ n

/-- The months of a year fill it. -/
theorem daysBeforeMonth_twelve (y : ℤ) : (daysBeforeMonth (isLeap y) 12 : ℤ) = yearLength y := by
  unfold yearLength
  cases isLeap y <;> rfl

theorem monthOf_lt (leap : Bool) (n : ℕ) : monthOf leap n < 12 :=
  Nat.lt_succ_of_le (List.countP_le_length.trans (Nat.le_of_eq List.length_range))

/-- A day lies in its month. -/
theorem daysBeforeMonth_monthOf {leap : Bool} {n : ℕ} (h : n < daysBeforeMonth leap 12) :
    daysBeforeMonth leap (monthOf leap n) ≤ n ∧ n < daysBeforeMonth leap (monthOf leap n + 1) := by
  have hall : ∀ leap : Bool, ∀ n < 366, n < daysBeforeMonth leap 12 →
      daysBeforeMonth leap (monthOf leap n) ≤ n ∧
        n < daysBeforeMonth leap (monthOf leap n + 1) := by decide +kernel
  have hlength : daysBeforeMonth leap 12 ≤ 366 := by cases leap <;> decide
  exact hall leap n (h.trans_le hlength) h

theorem daysBeforeMonth_mono {leap : Bool} {m m' : ℕ} (h : m ≤ m') (h' : m' ≤ 12) :
    daysBeforeMonth leap m ≤ daysBeforeMonth leap m' := by
  have hall : ∀ leap : Bool, ∀ m' < 13, ∀ m < m' + 1,
      daysBeforeMonth leap m ≤ daysBeforeMonth leap m' := by decide +kernel
  exact hall leap m' (Nat.lt_succ_of_le h') m (Nat.lt_succ_of_le h)

/-! ## Dates -/

/-- A date: months are numbered from 0, days from 1. -/
@[ext]
structure Date where
  year : ℤ
  month : ℕ
  day : ℕ
  month_lt : month < 12
  day_pos : 0 < day
  day_le : day ≤ monthLength (isLeap year) month

namespace Date

/-- The day a date names. -/
def toDay (date : Date) : ℤ :=
  daysBeforeYear date.year + daysBeforeMonth (isLeap date.year) date.month + (date.day - 1 : ℕ)

/-- The place of a day in its year. -/
def dayWithinYear (d : ℤ) : ℕ := (d - daysBeforeYear (yearOf d)).toNat

theorem dayWithinYear_lt (d : ℤ) :
    dayWithinYear d < daysBeforeMonth (isLeap (yearOf d)) 12 := by
  obtain ⟨hle, hlt⟩ := daysBeforeYear_yearOf d
  rw [daysBeforeYear_add_one, ← daysBeforeMonth_twelve] at hlt
  unfold dayWithinYear
  omega

/-- The date of a day. -/
def ofDay (d : ℤ) : Date where
  year := yearOf d
  month := monthOf (isLeap (yearOf d)) (dayWithinYear d)
  day := dayWithinYear d -
    daysBeforeMonth (isLeap (yearOf d)) (monthOf (isLeap (yearOf d)) (dayWithinYear d)) + 1
  month_lt := monthOf_lt _ _
  day_pos := Nat.succ_pos _
  day_le := by
    have := daysBeforeMonth_monthOf (dayWithinYear_lt d)
    unfold monthLength
    omega

/-- Every day has a date, and every date names a day. -/
theorem toDay_ofDay (d : ℤ) : (ofDay d).toDay = d := by
  have hyear := (daysBeforeYear_yearOf d).1
  have hmonth := (daysBeforeMonth_monthOf (dayWithinYear_lt d)).1
  have hday : (dayWithinYear d : ℤ) = d - daysBeforeYear (yearOf d) := by
    rw [dayWithinYear]
    omega
  unfold toDay ofDay
  dsimp only
  omega

/-- A date lies in its month. -/
theorem dayOfYear_lt (date : Date) :
    daysBeforeMonth (isLeap date.year) date.month + (date.day - 1) <
      daysBeforeMonth (isLeap date.year) (date.month + 1) := by
  have hle := date.day_le
  have hpos := date.day_pos
  unfold monthLength at hle
  omega

theorem yearOf_toDay (date : Date) : yearOf date.toDay = date.year := by
  have hlt := date.dayOfYear_lt
  have hmono : daysBeforeMonth (isLeap date.year) (date.month + 1) ≤
      daysBeforeMonth (isLeap date.year) 12 := daysBeforeMonth_mono date.month_lt (Nat.le_refl 12)
  refine yearOf_eq ?_ ?_
  · unfold toDay
    omega
  · rw [daysBeforeYear_add_one, ← daysBeforeMonth_twelve]
    unfold toDay
    omega

/-- One date comes before another one. -/
def Before (date date' : Date) : Prop :=
  date.year < date'.year ∨ date.year = date'.year ∧
    (date.month < date'.month ∨ date.month = date'.month ∧ date.day < date'.day)

theorem Before.toDay_lt {date date' : Date} (h : date.Before date') : date.toDay < date'.toDay := by
  have hlt := date.dayOfYear_lt
  have hlt' := date'.dayOfYear_lt
  have hpos := date.day_pos
  rcases h with hyear | ⟨hyear, hmonth | ⟨hmonth, hday⟩⟩
  · -- the year of the first date has ended
    have hend : date.toDay < daysBeforeYear (date.year + 1) := by
      have hbounds := (daysBeforeYear_yearOf date.toDay).2
      rwa [yearOf_toDay] at hbounds
    have hyears := daysBeforeYear_le (Int.add_one_le_of_lt hyear)
    have hbegin : daysBeforeYear date'.year ≤ date'.toDay := by
      unfold toDay
      omega
    omega
  · have hmono : daysBeforeMonth (isLeap date'.year) (date.month + 1) ≤
        daysBeforeMonth (isLeap date'.year) date'.month :=
      daysBeforeMonth_mono hmonth date'.month_lt.le
    unfold toDay
    rw [hyear] at hlt ⊢
    omega
  · unfold toDay
    rw [hyear, hmonth]
    omega

/-- Dates are ordered as the days they name. -/
theorem toDay_lt_iff {date date' : Date} : date.toDay < date'.toDay ↔ date.Before date' := by
  refine ⟨fun h => ?_, Before.toDay_lt⟩
  by_contra hbefore
  have hcases : date = date' ∨ date'.Before date := by
    by_cases hyear : date.year = date'.year
    · by_cases hmonth : date.month = date'.month
      · by_cases hday : date.day = date'.day
        · exact Or.inl (Date.ext hyear hmonth hday)
        · unfold Before at hbefore ⊢
          omega
      · unfold Before at hbefore ⊢
        omega
    · unfold Before at hbefore ⊢
      omega
  rcases hcases with rfl | hafter
  · exact lt_irrefl _ h
  · exact lt_asymm h hafter.toDay_lt

end Date

end Lib.Calendar
