/-! # The calendar

Days are counted from 1 January 1970 in the proleptic Gregorian calendar. The year
is taken to begin in March, so that the leap day is its last day and every month
but the last follows the same pattern of lengths; four hundred such years are one
cycle of `146097` days.
-/

namespace QueryDriver.Calendar

/-- The years that have a 29 February. -/
def isLeap (year : Int) : Bool := year % 4 == 0 && (year % 100 != 0 || year % 400 == 0)

/-- How many days a month has. -/
def daysInMonth (year : Int) (month : Nat) : Nat :=
  match month with
  | 2 => if isLeap year then 29 else 28
  | 4 | 6 | 9 | 11 => 30
  | _ => 31

/-- The number of the day, counted from 1 January 1970. -/
def daysOfDate (year : Int) (month day : Nat) : Int :=
  let y : Int := if month ≤ 2 then year - 1 else year
  let cycle := y / 400
  let yearOfCycle := y % 400
  let monthOfYear : Int := if month ≤ 2 then (month : Int) + 9 else (month : Int) - 3
  let dayOfYear := (153 * monthOfYear + 2) / 5 + (day : Int) - 1
  let dayOfCycle := yearOfCycle * 365 + yearOfCycle / 4 - yearOfCycle / 100 + dayOfYear
  cycle * 146097 + dayOfCycle - 719468

/-- Year, month and day of a numbered day. -/
def dateOfDays (days : Int) : Int × Nat × Nat :=
  let z := days + 719468
  let cycle := z / 146097
  let dayOfCycle := z % 146097
  let yearOfCycle :=
    (dayOfCycle - dayOfCycle / 1460 + dayOfCycle / 36524 - dayOfCycle / 146096) / 365
  let dayOfYear := dayOfCycle - (365 * yearOfCycle + yearOfCycle / 4 - yearOfCycle / 100)
  let monthOfYear := (5 * dayOfYear + 2) / 153
  let day := dayOfYear - (153 * monthOfYear + 2) / 5 + 1
  let month := if monthOfYear < 10 then monthOfYear + 3 else monthOfYear - 9
  let year := yearOfCycle + cycle * 400
  ((if month ≤ 2 then year + 1 else year), month.toNat, day.toNat)

end QueryDriver.Calendar
