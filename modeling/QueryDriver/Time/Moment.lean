import QueryDriver.Time.Calendar
import QueryDriver.Time.Duration

/-! # Moments

A `Moment` is a date, a time of day and what is known of the offset from universal
time: nothing, a zone that names no offset, or the offset itself. Only a moment
whose offset is known is a point in time.

`epochMicros` and `ofEpochMicros` go between points in time and moments; the second
is partial, since years are written with one to four digits.
-/

namespace QueryDriver

/-- What is known of a moment's offset from universal time. -/
inductive Offset where
  /-- No zone at all. -/
  | naive
  /-- A zone that gives no offset. -/
  | unknown
  /-- The offset east of Greenwich. -/
  | fixed (east : Duration)
deriving DecidableEq

structure Moment where
  year : Nat
  month : Nat
  day : Nat
  hour : Nat
  minute : Nat
  second : Nat
  micro : Nat
  offset : Offset
deriving DecidableEq

namespace Moment

/-- The time on the moment's own clock, in microseconds from the start of 1970. -/
def localMicros (t : Moment) : Int :=
  (Calendar.daysOfDate t.year t.month t.day * 86400
    + (t.hour * 3600 + t.minute * 60 + t.second : Nat)) * 1000000 + t.micro

/-- The known offset. -/
def offset? (t : Moment) : Option Duration :=
  match t.offset with
  | .fixed east => some east
  | _ => none

/-- The point in time, in microseconds from the start of 1970, under an offset. -/
def epochMicros (t : Moment) (east : Duration) : Int := t.localMicros - east.micros

/-- The point in time in seconds, as the nearest double. -/
def epochSeconds (t : Moment) (east : Duration) : Double :=
  let n := t.epochMicros east
  (Double.ofRatio (n < 0) n.natAbs 1000000).getD Double.zero

/-- The moment with the given reading of its own clock. -/
def ofLocalMicros (micros : Int) (offset : Offset) : Option Moment :=
  let seconds := micros / 1000000
  let (year, month, day) := Calendar.dateOfDays (seconds / 86400)
  let s := (seconds % 86400).toNat
  if 1 ≤ year ∧ year ≤ 9999 then
    some ⟨year.toNat, month, day, s / 3600, s / 60 % 60, s % 60, (micros % 1000000).toNat, offset⟩
  else none

/-- The moment at a point in time on the clock of an offset. Both the universal year
and the year on that clock have to be representable. -/
def ofEpochMicros (micros : Int) (east : Duration) : Option Moment :=
  match ofLocalMicros micros .naive with
  | none => none
  | some _ => ofLocalMicros (micros + east.micros) (.fixed east)

/-- The zone of an offset, as the expression that makes it. -/
def zoneShown (east : Duration) : String :=
  if east.micros = 0 then "datetime.timezone.utc"
  else "datetime.timezone(" ++ east.shown ++ ")"

/-- The expression that makes the moment. -/
def shown (t : Moment) : String :=
  let clock := [t.year, t.month, t.day, t.hour, t.minute].map toString
    ++ (if t.second = 0 ∧ t.micro = 0 then [] else [toString t.second])
    ++ (if t.micro = 0 then [] else [toString t.micro])
  let zone :=
    match t.offset with
    | .naive => []
    | .unknown => ["tzinfo=<zone>"]
    | .fixed east => ["tzinfo=" ++ zoneShown east]
  "datetime.datetime(" ++ String.intercalate ", " (clock ++ zone) ++ ")"

/-- An offset as a clock reading with its sign, seconds only when there are any. -/
def offsetText (east : Duration) : String :=
  let n := east.micros.natAbs
  let s := n / 1000000
  (if east.micros < 0 then "-" else "+") ++ Duration.padded 2 (s / 3600) ++ ":"
    ++ Duration.padded 2 (s / 60 % 60)
    ++ (if s % 60 = 0 ∧ n % 1000000 = 0 then "" else ":" ++ Duration.padded 2 (s % 60))
    ++ (if n % 1000000 = 0 then "" else "." ++ Duration.padded 6 (n % 1000000))

/-- Date, blank, time of day and offset. -/
def text (t : Moment) : String :=
  Duration.padded 4 t.year ++ "-" ++ Duration.padded 2 t.month ++ "-" ++ Duration.padded 2 t.day
    ++ " " ++ Duration.padded 2 t.hour ++ ":" ++ Duration.padded 2 t.minute ++ ":"
    ++ Duration.padded 2 t.second
    ++ (if t.micro = 0 then "" else "." ++ Duration.padded 6 t.micro)
    ++ (match t.offset? with | some east => offsetText east | none => "")

end Moment

end QueryDriver
