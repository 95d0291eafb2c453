import Mathlib.Tactic.Common
import Mathlib.Tactic.IntervalCases
import QueryDriver.Time.Calendar

/-!
# Dates and days

The date of a numbered day is found back from the number: `dateOfDays_daysOfDate`. The year of the
cycle is the delicate part. Its first guess, `365` days for each year, runs ahead of the calendar
by the leap days that were passed, and the corrections in `dateOfDays` take them out again, up to
the two days on which a fourth year and a fourth century end.
-/

namespace QueryDriver.Calendar

/-- The number of whole centuries in a day of the cycle. The last day of the cycle does not begin
another one. -/
theorem century_eq {n c : Int} (hc : 0 ≤ c) (hle : 36524 * c ≤ n)
    (hlt : n < 36524 * (c + 1) ∧ n < 146096 ∨ c = 3 ∧ n = 146096) :
    n / 36524 - n / 146096 = c := by
  obtain ⟨hlt, hinside⟩ | ⟨rfl, rfl⟩ := hlt
  · have hcentury : n / 36524 = c := by omega
    have hcycle : n / 146096 = 0 := by omega
    omega
  · rfl

/-- The day `r` of the year `y` of the cycle is in that year. Only a year in front of a leap day
has a day `365`. -/
theorem yearOfCycle_eq {y r n : Int} (hy : 0 ≤ y) (hy' : y < 400) (hr : 0 ≤ r) (hr' : r ≤ 365)
    (hleap : r = 365 → (y + 1) % 4 = 0 ∧ ((y + 1) % 100 ≠ 0 ∨ y = 399))
    (hn : n = y * 365 + y / 4 - y / 100 + r) :
    0 ≤ n ∧ n < 146097 ∧ (n - n / 1460 + n / 36524 - n / 146096) / 365 = y := by
  obtain ⟨c, hc⟩ : ∃ c, c = y / 100 := ⟨_, rfl⟩
  obtain ⟨q, hq⟩ : ∃ q, q = y % 100 / 4 := ⟨_, rfl⟩
  obtain ⟨k, hk⟩ : ∃ k, k = y % 4 := ⟨_, rfl⟩
  have hsplit : y = 100 * c + 4 * q + k := by omega
  have hday : n = 36524 * c + 1461 * q + 365 * k + r := by omega
  have hcentury : n / 36524 - n / 146096 = c :=
    century_eq (by omega) (by omega) (by omega)
  -- The fourth years are counted one too many from some day of the last of four years on.
  have hfour : n / 1460 = 25 * c + q ∧ r < 365 ∨ n / 1460 = 25 * c + q + 1 ∧ 0 < r := by omega
  have hguess : n - n / 1460 + n / 36524 - n / 146096 =
      365 * y + (r - (n / 1460 - 25 * c - q)) := by omega
  exact ⟨by omega, by omega, by omega⟩

/-- A month has as many days as there are from its first day to that of the next one, but for the
last month of a year that begins in March, which is shorter. -/
theorem day_le_of_month {year m : Int} {month day : Nat} (hmonth : 1 ≤ month) (hmonth' : month ≤ 12)
    (hday : day ≤ daysInMonth year month)
    (hm : m = if month ≤ 2 then (month : Int) + 9 else (month : Int) - 3) :
    (day : Int) ≤ (153 * (m + 1) + 2) / 5 - (153 * m + 2) / 5 ∧
      (153 * m + 2) / 5 + (day : Int) - 1 ≤ 365 ∧
      ((153 * m + 2) / 5 + (day : Int) - 1 = 365 → month = 2 ∧ isLeap year = true) := by
  subst hm
  obtain rfl | hne := eq_or_ne month 2
  · have hfebruary : daysInMonth year 2 = if isLeap year then 29 else 28 := rfl
    rw [hfebruary] at hday
    split at hday
    next hleap => exact ⟨by omega, by omega, fun _ => ⟨rfl, hleap⟩⟩
    next => exact ⟨by omega, by omega, by omega⟩
  · interval_cases month
    all_goals
      simp only [daysInMonth] at hday
      exact ⟨by omega, by omega, by omega⟩

/-- The date of a day is found back from the number of the day. -/
theorem dateOfDays_daysOfDate {year : Int} {month day : Nat} (hmonth : 1 ≤ month)
    (hmonth' : month ≤ 12) (hday : 1 ≤ day) (hday' : day ≤ daysInMonth year month) :
    dateOfDays (daysOfDate year month day) = (year, month, day) := by
  obtain ⟨y, hy⟩ : ∃ y, y = (if month ≤ 2 then year - 1 else year) := ⟨_, rfl⟩
  obtain ⟨m, hm⟩ : ∃ m : Int, m = (if month ≤ 2 then (month : Int) + 9 else month - 3) := ⟨_, rfl⟩
  obtain ⟨r, hr⟩ : ∃ r, r = (153 * m + 2) / 5 + (day : Int) - 1 := ⟨_, rfl⟩
  obtain ⟨n, hn⟩ : ∃ n, n = y % 400 * 365 + y % 400 / 4 - y % 400 / 100 + r := ⟨_, rfl⟩
  obtain ⟨hlong, hlast, hfebruary⟩ := day_le_of_month hmonth hmonth' hday' hm
  rw [← hr] at hlast hfebruary
  have hleap : r = 365 → (y % 400 + 1) % 4 = 0 ∧ ((y % 400 + 1) % 100 ≠ 0 ∨ y % 400 = 399) := by
    intro hday
    obtain ⟨rfl, hleap⟩ := hfebruary hday
    have hrule : year % 4 = 0 ∧ (year % 100 ≠ 0 ∨ year % 400 = 0) := by simpa [isLeap] using hleap
    rw [if_pos le_rfl] at hy
    omega
  obtain ⟨hn0, hn1, hyear⟩ := yearOfCycle_eq (by omega) (by omega) (by omega) hlast hleap hn
  have hz : daysOfDate year month day + 719468 = y / 400 * 146097 + n := by
    simp only [daysOfDate, ← hy, ← hm, ← hr, ← hn]
    omega
  have hcycle : (y / 400 * 146097 + n) / 146097 = y / 400 := by omega
  have hrest : (y / 400 * 146097 + n) % 146097 = n := by omega
  have hdayOfYear : n - (365 * (y % 400) + y % 400 / 4 - y % 400 / 100) = r := by omega
  have hmonthOfYear : (5 * r + 2) / 153 = m := by omega
  have hy400 : y % 400 + y / 400 * 400 = y := by omega
  have hd : r - (153 * m + 2) / 5 + 1 = day := by omega
  simp only [dateOfDays, hz, hcycle, hrest, hyear, hdayOfYear, hmonthOfYear, hy400, hd,
    Prod.mk.injEq]
  refine ⟨?_, ?_, Int.toNat_natCast day⟩
  all_goals
    clear * - hy hm hmonth hmonth'
    split at hm <;> omega

/-- The count starts at the first day of 1970. -/
example : dateOfDays 0 = (1970, 1, 1) := by decide

/-- The days from the first of the year `1` up to the last of the year `9999` are in years of at
most four digits. -/
theorem year_dateOfDays {days : Int} (hfirst : daysOfDate 1 1 1 ≤ days)
    (hlast : days < daysOfDate 10000 1 1) :
    1 ≤ (dateOfDays days).1 ∧ (dateOfDays days).1 ≤ 9999 := by
  have hone : daysOfDate 1 1 1 = -719162 := by decide
  have hend : daysOfDate 10000 1 1 = 2932897 := by decide
  rw [hone] at hfirst
  rw [hend] at hlast
  unfold dateOfDays
  dsimp only
  split <;> constructor <;> omega

end QueryDriver.Calendar
