import QueryDriver.Failure
import QueryDriver.Value

/-! # Literals that need checking

Not every text is a number, not every pair of integers a fraction, not every number of
seconds a duration, and not every reading of a clock a moment.
-/

namespace QueryDriver.Value

/-- The most digits that an integer is read with. -/
def digitLimit : Nat := 4300

/-- The integer that a text of digits with a sign denotes. -/
def integerOf (text : String) : Except Fault Int :=
  let count := (text.toList.filter Char.isDigit).length
  if digitLimit < count then .error (.tooManyDigits count digitLimit)
  else .ok (text.toInt?.getD 0)

/-- The fraction of two integers, in lowest terms and with a positive denominator. -/
def fractionOf (num den : Int) : Except Fault Value :=
  if den = 0 then .error (.divisionByZero num)
  else
    let g : Int := (Int.gcd num den : Nat)
    let num := if den < 0 then -num else num
    .ok (.fraction (num / g) (den.natAbs / g.toNat))

/-- The decimal that a text denotes. -/
def decimalOf (text : String) : Except Fault Value :=
  match Numeral.read text with
  | .ok n => .ok (.decimal n)
  | .error .malformed => .error .malformedDecimal
  | .error .outOfRange => .error .invalidDecimal

/-! ### Times -/

/-- How many days a duration may have, in either direction. -/
def maxDays : Nat := 999999999

/-- A duration that is not too long. The count of days has to fit a machine word of 32
bits before anything else is looked at. -/
def checkDuration (d : Duration) : Except Fault Duration :=
  if d.days < -2147483648 ∨ 2147483647 < d.days then .error .machineIntegerExceeded
  else if d.days.natAbs ≤ maxDays then .ok d
  else .error (.durationTooLong d.days)

/-- The duration of a number of seconds. -/
def durationOf (seconds : Double) : Except Fault Value :=
  if seconds.isNaN then .error .integerFromNaN
  else if seconds.isInfinite then .error .integerFromInfinity
  else (checkDuration (Duration.ofDouble seconds)).map .duration

/-- A part of a date or of a time of day, which has bounds. -/
def checkPart (part : String) (least most : Nat) (n : Int) : Except Fault Nat :=
  if n < least ∨ most < n then .error (.clockOutOfRange part least most) else .ok n.toNat

/-- The moment of a date, a time of day and an offset. -/
def momentOf (year month day hour minute second micro : Int) (offset : Offset) :
    Except Fault Value := do
  if year < 1 ∨ 9999 < year then throw (.yearOutOfRange year)
  let month ← checkPart "month" 1 12 month
  if day < 1 ∨ Calendar.daysInMonth year month < day then throw .dayOutOfRange
  let hour ← checkPart "hour" 0 23 hour
  let minute ← checkPart "minute" 0 59 minute
  let second ← checkPart "second" 0 59 second
  let micro ← checkPart "microsecond" 0 999999 micro
  return .moment ⟨year.toNat, month, day.toNat, hour, minute, second, micro, offset⟩

end QueryDriver.Value
