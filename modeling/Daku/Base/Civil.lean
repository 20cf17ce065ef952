import Mathlib.Tactic.IntervalCases

/-!
# The Gregorian calendar

Dates and the number of days before them, counted year by year and month by month, and the closed
form of that count.
-/

namespace Daku.Base

/-- Leap years have a 29th of February. -/
def IsLeap (year : ℕ) : Prop := year % 4 = 0 ∧ (year % 100 ≠ 0 ∨ year % 400 = 0)

instance (year : ℕ) : Decidable (IsLeap year) :=
  inferInstanceAs (Decidable (_ ∧ _))

/-- Days of a month, counted from 1. -/
def monthLength (year month : ℕ) : ℕ :=
  if month ∈ [4, 6, 9, 11] then 30
  else if month = 2 then if IsLeap year then 29 else 28
  else 31

/-- Days of a year. -/
def yearLength (year : ℕ) : ℕ := if IsLeap year then 366 else 365

/-- Days of the years before this one, from year 0 on. -/
def daysOfYears : ℕ → ℕ
  | 0 => 0
  | year + 1 => daysOfYears year + yearLength year

/-- Days of the first months of a year. -/
def daysOfMonths (year : ℕ) : ℕ → ℕ
  | 0 => 0
  | months + 1 => daysOfMonths year months + monthLength year (months + 1)

/-- A date of the calendar. -/
structure CivilDate where
  year : ℕ
  month : ℕ
  day : ℕ
  month_pos : 1 ≤ month
  month_le : month ≤ 12
  day_pos : 1 ≤ day
  day_le : day ≤ monthLength year month

/-- Days from the first of January of year 0 to a date. -/
def CivilDate.dayNumber (d : CivilDate) : ℕ :=
  daysOfYears d.year + daysOfMonths d.year (d.month - 1) + (d.day - 1)

/-- A time of the day, without leap seconds. -/
structure TimeOfDay where
  hour : ℕ
  minute : ℕ
  second : ℕ
  hour_lt : hour < 24
  minute_lt : minute < 60
  second_lt : second < 60

/-- Seconds since midnight. -/
def TimeOfDay.seconds (t : TimeOfDay) : ℕ := t.hour * 3600 + t.minute * 60 + t.second

theorem TimeOfDay.seconds_lt (t : TimeOfDay) : t.seconds < 86400 := by
  have hhour := t.hour_lt
  have hminute := t.minute_lt
  have hsecond := t.second_lt
  rw [seconds]
  omega

/-- The days of the years before, with a leap day for every leap year before. -/
theorem daysOfYears_eq (year : ℕ) :
    daysOfYears year + (year + 99) / 100 =
      365 * year + (year + 3) / 4 + (year + 399) / 400 := by
  induction year with
  | zero => rfl
  | succ year ih =>
    have hfour : (year + 1 + 3) / 4 = (year + 3) / 4 + if year % 4 = 0 then 1 else 0 := by
      split <;> omega
    have hcentury : (year + 1 + 99) / 100 = (year + 99) / 100 + if year % 100 = 0 then 1 else 0 := by
      split <;> omega
    have hera : (year + 1 + 399) / 400 = (year + 399) / 400 + if year % 400 = 0 then 1 else 0 := by
      split <;> omega
    have hlength : yearLength year + (if year % 100 = 0 then 1 else 0) =
        365 + (if year % 4 = 0 then 1 else 0) + if year % 400 = 0 then 1 else 0 := by
      rw [yearLength]
      unfold IsLeap
      grind
    rw [daysOfYears, hfour, hcentury, hera]
    omega

/-- From March on the months have lengths that one formula counts; the leap day is the last day of
such a year. -/
theorem daysOfMonths_eq {year month : ℕ} (hpos : 1 ≤ month) (hle : month ≤ 12) :
    daysOfMonths year (month - 1) =
      if month ≤ 2 then 31 * (month - 1)
      else (153 * (month - 3) + 2) / 5 + 59 + if IsLeap year then 1 else 0 := by
  by_cases h : IsLeap year <;> interval_cases month <;> simp [daysOfMonths, monthLength, h]

end Daku.Base
