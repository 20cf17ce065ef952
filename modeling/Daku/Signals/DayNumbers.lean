import Daku.Base.Gregorian
import Daku.Signals.Calendar

/-!
# Day numbers

The day numbers of `crates/daku-core/src/last_clone.rs:123–146` are those of the calendar, over all
integers and wherever no operation leaves the `i64` range.
-/

namespace Daku.Signals

open Daku.Base GregorianDate

section Numbers

variable {wrap : Int → Int} {bound year month day : Int}

/-- The era of a shifted year, rounded towards the past. -/
theorem era_eq (h : wrap (year - 399) = year - 399) :
    (if 0 ≤ year then year else wrap (year - 399)).tdiv 400 = year / 400 := by
  split
  · next hpos => exact Int.tdiv_eq_ediv_of_nonneg hpos
  · next hneg =>
    rw [h, Int.tdiv_eq_ediv]
    split
    · omega
    · next hnot =>
      have hsign : (400 : Int).sign = 1 := rfl
      rw [hsign]
      omega

/-- The eras and the days in one add up. -/
theorem days_of_era (year doy day : Int) :
    year / 400 * 146097 +
        (year % 400 * 365 + year % 400 / 4 - year % 400 / 100 + (doy + day - 1)) - 719468 =
      year * 365 + year / 4 - year / 100 + year / 400 + doy + day - 719469 := by
  have hfour : year / 4 = year / 400 * 100 + year % 400 / 4 := by omega
  have hcentury : year / 100 = year / 400 * 4 + year % 400 / 100 := by omega
  have hparts : year = year / 400 * 400 + year % 400 := by omega
  omega

/-- So they do where nothing within the bound changes. -/
private theorem days_of_fixed (hmin : -bound - 1 ≤ year) (hmax : year ≤ bound)
    (hwrap : ∀ n, -(400 * bound + 1000000) ≤ n → n ≤ 400 * bound + 1000000 → wrap n = n)
    {doy : Int} (hdoy : 0 ≤ doy ∧ doy ≤ 337) (hday : 1 ≤ day ∧ day ≤ 31) :
    wrap (wrap (wrap (year / 400 * 146097) +
        wrap (year % 400 * 365 + year % 400 / 4 - year % 400 / 100 + (doy + day - 1))) - 719468) =
      year * 365 + year / 4 - year / 100 + year / 400 + doy + day - 719469 := by
  rw [← days_of_era year doy day]
  have hyoe : 0 ≤ year % 400 ∧ year % 400 < 400 := by omega
  have hparts : year = year / 400 * 400 + year % 400 := by omega
  have hquad : 0 ≤ year % 400 / 4 ∧ year % 400 / 4 < 100 := by omega
  have hcent : 0 ≤ year % 400 / 100 ∧ year % 400 / 100 < 4 := by omega
  generalize year % 400 / 4 = quad at *
  generalize year % 400 / 100 = cent at *
  generalize year % 400 = yoe at *
  generalize year / 400 = era at *
  have hdays := hwrap (yoe * 365 + quad - cent + (doy + day - 1)) (by omega) (by omega)
  have heras := hwrap (era * 146097) (by omega) (by omega)
  rw [hdays, heras, hwrap (_ + _) (by omega) (by omega), hwrap _ (by omega) (by omega)]

/-- The formula of the source, where nothing within the bound changes. -/
theorem daysFromCivil_of_fixed (hmin : -bound ≤ year) (hmax : year ≤ bound)
    (hwrap : ∀ n, -(400 * bound + 1000000) ≤ n → n ≤ 400 * bound + 1000000 → wrap n = n)
    (hmonth : 1 ≤ month ∧ month ≤ 12) (hday : 1 ≤ day ∧ day ≤ 31) :
    daysFromCivil wrap year month day =
      let y := marchYear year month
      y * 365 + y / 4 - y / 100 + y / 400 + marchDays month + day - 719469 := by
  have hyear : (if month ≤ 2 then wrap (year - 1) else year) = marchYear year month := by
    rw [marchYear, hwrap _ (by omega) (by omega)]
  have hbounds : -bound - 1 ≤ marchYear year month ∧ marchYear year month ≤ bound := by
    rw [marchYear]
    split <;> omega
  have hscaled : 0 ≤ 153 * (if 2 < month then month - 3 else month + 9) + 2 ∧
      153 * (if 2 < month then month - 3 else month + 9) + 2 ≤ 1685 := by
    split <;> omega
  have hdoy : 0 ≤ marchDays month ∧ marchDays month ≤ 337 := by
    rw [marchDays]
    omega
  rw [daysFromCivil, hyear]
  dsimp only
  generalize marchYear year month = y at hbounds ⊢
  have hera := hwrap (y - 399) (by omega) (by omega)
  have hyoe : wrap (y - y / 400 * 400) = y % 400 := by
    rw [hwrap _ (by omega) (by omega)]
    omega
  have hnonneg : 0 ≤ y % 400 := by omega
  rw [era_eq hera, hyoe, Int.tdiv_eq_ediv_of_nonneg hscaled.1, Int.tdiv_eq_ediv_of_nonneg hnonneg,
    Int.tdiv_eq_ediv_of_nonneg hnonneg]
  exact days_of_fixed hbounds.1 hbounds.2 hwrap hdoy hday

/-- So does the machine for all years that are not too far away. -/
theorem daysFromCivil_wrapI64 (hmin : -20000000000000000 ≤ year)
    (hmax : year ≤ 20000000000000000) (hmonth : 1 ≤ month ∧ month ≤ 12)
    (hday : 1 ≤ day ∧ day ≤ 31) :
    daysFromCivil wrapI64 year month day =
      let y := marchYear year month
      y * 365 + y / 4 - y / 100 + y / 400 + marchDays month + day - 719469 := by
  refine daysFromCivil_of_fixed hmin hmax (fun n hn hn' ↦ ?_) hmonth hday
  apply wrapI64_of_mem <;> simp only [i64Min, i64Max] <;> omega

end Numbers

/-- Over all integers the source numbers the days of the calendar. -/
theorem daysFromCivil_id (d : GregorianDate) :
    daysFromCivil id d.year d.month d.day = d.number := by
  have hmin : -(d.year.natAbs : Int) ≤ d.year := by omega
  have hmax : d.year ≤ d.year.natAbs := by omega
  exact daysFromCivil_of_fixed hmin hmax (fun _ _ _ ↦ rfl) ⟨d.month_pos, d.month_le⟩
    ⟨d.day_pos, d.day_le.trans (daysOfMonth_le _ _)⟩

end Daku.Signals
