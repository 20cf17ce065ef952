import Mathlib.Logic.Function.Iterate
import Mathlib.Tactic.IntervalCases

/-!
# The proleptic Gregorian calendar

Dates of all years, also before the year 0, the day after a date, and the number of days since
1970-01-01 in a closed form that counts the years from March on.
-/

namespace Daku.Base

/-- Leap years have a 29th of February. -/
def IsLeapYear (year : Int) : Prop := year % 4 = 0 ∧ (year % 100 ≠ 0 ∨ year % 400 = 0)

instance (year : Int) : Decidable (IsLeapYear year) :=
  inferInstanceAs (Decidable (_ ∧ _))

/-- Days of a month, counted from 1. -/
def daysOfMonth (year month : Int) : Int :=
  if month = 2 then if IsLeapYear year then 29 else 28
  else if month = 4 ∨ month = 6 ∨ month = 9 ∨ month = 11 then 30
  else 31

theorem daysOfMonth_pos (year month : Int) : 1 ≤ daysOfMonth year month := by
  rw [daysOfMonth]
  split
  · split <;> omega
  · split <;> omega

theorem le_daysOfMonth (year month : Int) : 28 ≤ daysOfMonth year month := by
  rw [daysOfMonth]
  split
  · split <;> omega
  · split <;> omega

theorem daysOfMonth_le (year month : Int) : daysOfMonth year month ≤ 31 := by
  rw [daysOfMonth]
  split
  · split <;> omega
  · split <;> omega

/-- A date of the calendar. -/
@[ext]
structure GregorianDate where
  year : Int
  month : Int
  day : Int
  month_pos : 1 ≤ month
  month_le : month ≤ 12
  day_pos : 1 ≤ day
  day_le : day ≤ daysOfMonth year month
  deriving DecidableEq

namespace GregorianDate

/-- The day after a date. -/
def next (d : GregorianDate) : GregorianDate :=
  if hday : d.day < daysOfMonth d.year d.month then
    ⟨d.year, d.month, d.day + 1, d.month_pos, d.month_le, Int.le_add_one d.day_pos, hday⟩
  else if hmonth : d.month < 12 then
    ⟨d.year, d.month + 1, 1, Int.le_add_one d.month_pos, hmonth, le_refl 1, daysOfMonth_pos _ _⟩
  else
    ⟨d.year + 1, 1, 1, le_refl 1, by decide, le_refl 1, daysOfMonth_pos _ _⟩

/-- The year that begins with March. -/
def marchYear (year month : Int) : Int := if month ≤ 2 then year - 1 else year

/-- Days before a month in the year that begins with March. -/
def marchDays (month : Int) : Int := (153 * (if 2 < month then month - 3 else month + 9) + 2) / 5

/-- Days since 1970-01-01. -/
def number (d : GregorianDate) : Int :=
  let y := marchYear d.year d.month
  y * 365 + y / 4 - y / 100 + y / 400 + marchDays d.month + d.day - 719469

/-- The first day of 1970. -/
def epoch : GregorianDate :=
  ⟨1970, 1, 1, by decide, by decide, by decide, by decide⟩

theorem number_epoch : epoch.number = 0 := by decide

/-- Days in a year are days before it less, and one more for its own 29th of February. -/
private theorem leapDays_step (y : Int) :
    y / 4 - y / 100 + y / 400 =
      (y - 1) / 4 - (y - 1) / 100 + (y - 1) / 400 + if IsLeapYear y then 1 else 0 := by
  have hfour : y / 4 = (y - 1) / 4 + if y % 4 = 0 then 1 else 0 := by
    split <;> omega
  have hcentury : y / 100 = (y - 1) / 100 + if y % 100 = 0 then 1 else 0 := by
    split <;> omega
  have hera : y / 400 = (y - 1) / 400 + if y % 400 = 0 then 1 else 0 := by
    split <;> omega
  have hleap : ((if IsLeapYear y then 1 else 0 : Int)) =
      (if y % 4 = 0 then 1 else 0) - (if y % 100 = 0 then 1 else 0) +
        if y % 400 = 0 then 1 else 0 := by
    unfold IsLeapYear
    grind
  rw [hfour, hcentury, hera, hleap]
  omega

/-- The length of a month is what the number of the next first day adds. -/
private theorem marchDays_step {year month : Int} (hpos : 1 ≤ month) (hlt : month < 12) :
    let y := marchYear year month
    let y' := marchYear year (month + 1)
    y' * 365 + y' / 4 - y' / 100 + y' / 400 + marchDays (month + 1) =
      y * 365 + y / 4 - y / 100 + y / 400 + marchDays month + daysOfMonth year month := by
  by_cases hfebruary : month = 2
  · subst hfebruary
    have hleap := leapDays_step year
    have hlength : daysOfMonth year 2 = 28 + if IsLeapYear year then 1 else 0 := by
      rw [daysOfMonth, if_pos rfl]
      split <;> rfl
    have hbefore : marchYear year 2 = year - 1 := rfl
    have hafter : marchYear year (2 + 1) = year := rfl
    have hdays : marchDays 2 = 337 ∧ marchDays (2 + 1) = 0 := ⟨rfl, rfl⟩
    rw [hlength, hbefore, hafter, hdays.1, hdays.2]
    dsimp only
    omega
  · interval_cases month <;> simp [marchYear, marchDays, daysOfMonth] at * <;> omega

/-- The day after a date has the next number. -/
theorem number_next (d : GregorianDate) : d.next.number = d.number + 1 := by
  have hpos := d.month_pos
  have hle := d.month_le
  have hlength := d.day_le
  rw [next]
  split
  · simp only [number]
    omega
  next hlast =>
  split
  · next hmonth =>
    have hstep := @marchDays_step d.year d.month hpos hmonth
    simp only [number]
    simp only at hstep
    omega
  · next hmonth =>
    have hdecember : d.month = 12 := by omega
    have hlast' : d.day = 31 := by
      rw [hdecember, daysOfMonth] at hlength hlast
      simp only [Int.reduceEq, or_false, if_false] at hlength hlast
      omega
    have hjanuary : marchYear (d.year + 1) 1 = d.year := Int.add_sub_cancel _ _
    have hdays : marchDays 12 = 275 ∧ marchDays 1 = 306 := ⟨rfl, rfl⟩
    have hbefore : marchYear d.year 12 = d.year := rfl
    rw [number, number, hjanuary, hdecember, hlast', hbefore, hdays.1, hdays.2]
    dsimp only
    omega

/-- A date some days later has a number larger by as many. -/
theorem number_iterate (n : ℕ) (d : GregorianDate) : (next^[n] d).number = d.number + n := by
  induction n with
  | zero => exact (add_zero _).symm
  | succ n ih =>
    rw [Function.iterate_succ_apply', number_next, ih]
    omega

end GregorianDate

end Daku.Base
