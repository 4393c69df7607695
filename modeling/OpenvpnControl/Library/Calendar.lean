import Mathlib.Algebra.Order.Group.Unbundled.Int
import Mathlib.Data.Int.Basic

/-!
# Dates of the Gregorian calendar

The days since the first of January 1970 and the dates, as numbers of a year, a month and a day, for
all integers. A period of 400 years has 146097 days; a year is counted from March, so that a leap
day is its last one.

## Main definitions

* `Calendar.daysFromCivil`: the days up to a date.
* `Calendar.civilFromDays`: the date of a day.

## Main results

* `Calendar.daysFromCivil_civilFromDays`: the date of a day is as many days away.
* `Calendar.month_bounds`, `Calendar.day_bounds`: a date has a month and a day of a month.
-/

namespace Calendar

/-- The days from the first of January 1970 to a date. -/
def daysFromCivil (year month day : ℤ) : ℤ :=
  let y := if month ≤ 2 then year - 1 else year
  let yoe := y - y / 400 * 400
  let doy := (153 * (month + (if month > 2 then -3 else 9)) + 2) / 5 + day - 1
  y / 400 * 146097 + (yoe * 365 + yoe / 4 - yoe / 100 + doy) - 719468

/-- A date. -/
structure Civil where
  year : ℤ
  month : ℤ
  day : ℤ
  deriving DecidableEq

/-- The day in its period of 400 years. -/
def dayOfEra (days : ℤ) : ℤ := (days + 719468) % 146097

/-- The year in its period, of a day in the period. -/
def yearOfEra (doe : ℤ) : ℤ := (doe - doe / 1460 + doe / 36524 - doe / 146096) / 365

/-- The day in its year, from March, of a day in the period. -/
def dayOfYear (doe : ℤ) : ℤ :=
  doe - (365 * yearOfEra doe + yearOfEra doe / 4 - yearOfEra doe / 100)

/-- The date of a day of a year, from March, in a period. -/
def civilOf (era yoe doy : ℤ) : Civil :=
  let mp := (5 * doy + 2) / 153
  let month := if mp < 10 then mp + 3 else mp - 9
  ⟨era * 400 + yoe + (if month ≤ 2 then 1 else 0), month, doy - (153 * mp + 2) / 5 + 1⟩

/-- The date of a day. -/
def civilFromDays (days : ℤ) : Civil :=
  civilOf ((days + 719468) / 146097) (yearOfEra (dayOfEra days)) (dayOfYear (dayOfEra days))

theorem yearOfEra_bounds {doe : ℤ} (h0 : 0 ≤ doe) (h1 : doe ≤ 146096) :
    0 ≤ yearOfEra doe ∧ yearOfEra doe ≤ 399 := by
  unfold yearOfEra
  omega

/-- A year has at most 366 days. -/
theorem dayOfYear_bounds {doe : ℤ} (h0 : 0 ≤ doe) (h1 : doe ≤ 146096) :
    0 ≤ dayOfYear doe ∧ dayOfYear doe ≤ 365 := by
  rcases eq_or_ne doe 146096 with rfl | hne
  · decide
  · -- the last day of the period apart, the century of the day is that of the year
    have hera : doe / 146096 = 0 := by omega
    have hcentury : yearOfEra doe / 100 = doe / 36524 := by
      unfold yearOfEra
      omega
    have hleap : yearOfEra doe / 4 ≤ doe / 1460 ∧ doe / 1460 ≤ yearOfEra doe / 4 + 1 := by
      unfold yearOfEra
      omega
    have hyear : 365 * yearOfEra doe ≤ doe - doe / 1460 + doe / 36524 ∧
        doe - doe / 1460 + doe / 36524 ≤ 365 * yearOfEra doe + 364 := by
      unfold yearOfEra
      omega
    unfold dayOfYear
    omega

theorem dayOfEra_bounds (days : ℤ) : 0 ≤ dayOfEra days ∧ dayOfEra days ≤ 146096 := by
  unfold dayOfEra
  omega

theorem month_bounds (days : ℤ) :
    1 ≤ (civilFromDays days).month ∧ (civilFromDays days).month ≤ 12 := by
  obtain ⟨h0, h1⟩ := dayOfEra_bounds days
  obtain ⟨hy0, hy1⟩ := dayOfYear_bounds h0 h1
  simp only [civilFromDays, civilOf]
  split_ifs <;> omega

theorem day_bounds (days : ℤ) : 1 ≤ (civilFromDays days).day ∧ (civilFromDays days).day ≤ 31 := by
  obtain ⟨h0, h1⟩ := dayOfEra_bounds days
  obtain ⟨hy0, hy1⟩ := dayOfYear_bounds h0 h1
  simp only [civilFromDays, civilOf]
  omega

theorem daysFromCivil_civilOf {era yoe doy : ℤ} (hyoe : 0 ≤ yoe ∧ yoe ≤ 399)
    (hdoy : 0 ≤ doy ∧ doy ≤ 365) :
    daysFromCivil (civilOf era yoe doy).year (civilOf era yoe doy).month (civilOf era yoe doy).day =
      era * 146097 + (yoe * 365 + yoe / 4 - yoe / 100 + doy) - 719468 := by
  by_cases hmp : (5 * doy + 2) / 153 < 10
  · have hmonth : ¬(5 * doy + 2) / 153 + 3 ≤ 2 := by omega
    simp only [civilOf, daysFromCivil, if_pos hmp, if_neg hmonth]
    split_ifs <;> omega
  · have hmonth : (5 * doy + 2) / 153 - 9 ≤ 2 := by omega
    simp only [civilOf, daysFromCivil, if_neg hmp, if_pos hmonth]
    split_ifs <;> omega

/-- **The date of a day is as many days away.** -/
theorem daysFromCivil_civilFromDays (days : ℤ) :
    daysFromCivil (civilFromDays days).year (civilFromDays days).month (civilFromDays days).day =
      days := by
  obtain ⟨h0, h1⟩ := dayOfEra_bounds days
  rw [civilFromDays, daysFromCivil_civilOf (yearOfEra_bounds h0 h1) (dayOfYear_bounds h0 h1),
    dayOfYear, dayOfEra]
  omega

end Calendar
