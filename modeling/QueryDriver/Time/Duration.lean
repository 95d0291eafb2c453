import QueryDriver.Number.Layout

/-! # Durations

A duration is a whole number of microseconds. Its text splits it into days, seconds
and microseconds, where only the days may be negative: the seconds and microseconds
are what remains above the next lower whole day.
-/

namespace QueryDriver

/-- A length of time in microseconds. -/
structure Duration where
  micros : Int
deriving DecidableEq

namespace Duration

def ofSeconds (n : Int) : Duration := ⟨n * 1000000⟩

/-- Whole days, rounded down. -/
def days (d : Duration) : Int := d.micros / 86400000000

/-- Whole seconds above the whole days. -/
def seconds (d : Duration) : Nat := (d.micros / 1000000 % 86400).toNat

/-- Microseconds above the whole seconds. -/
def fraction (d : Duration) : Nat := (d.micros % 1000000).toNat

/-- A number with zeros in front up to a width. -/
def padded (width n : Nat) : String :=
  let ds := Nat.toDigits 10 n
  String.ofList (List.replicate (width - ds.length) '0' ++ ds)

/-- The clock reading of a duration, behind its days: `-1 day, 23:59:30`. -/
def text (d : Duration) : String :=
  let days :=
    if d.days = 0 then ""
    else toString d.days ++ (if d.days.natAbs = 1 then " day, " else " days, ")
  let s := d.seconds
  days ++ toString (s / 3600) ++ ":" ++ padded 2 (s / 60 % 60) ++ ":" ++ padded 2 (s % 60)
    ++ (if d.fraction = 0 then "" else "." ++ padded 6 d.fraction)

/-- The parts that are not zero, as the expression that makes the duration. -/
def shown (d : Duration) : String :=
  let parts :=
    (if d.days = 0 then [] else ["days=" ++ toString d.days])
      ++ (if d.seconds = 0 then [] else ["seconds=" ++ toString d.seconds])
      ++ (if d.fraction = 0 then [] else ["microseconds=" ++ toString d.fraction])
  "datetime.timedelta(" ++ (if parts.isEmpty then "0" else String.intercalate ", " parts) ++ ")"

/-- The duration in seconds, as the nearest double. -/
def toSeconds (d : Duration) : Double :=
  (Double.ofRatio (d.micros < 0) d.micros.natAbs 1000000).getD Double.zero

/-- The integer nearest to a ratio, of either sign, a half going to the even one. -/
def roundRatio (num : Int) (den : Nat) : Int :=
  let n : Int := (roundDiv num.natAbs den : Nat)
  if num < 0 then -n else n

/-- The duration nearest to a number of seconds. The whole seconds are exact; the
fraction is scaled to microseconds as a double and then rounded. -/
def ofDouble (x : Double) : Duration :=
  let (num, den) := x.exact
  let whole := x.truncate
  let rest := num - whole * den
  let scaled := (Double.ofRatio (rest < 0) (rest.natAbs * 1000000) den).getD Double.zero
  ⟨whole * 1000000 + roundRatio scaled.exact.1 scaled.exact.2⟩

end Duration

end QueryDriver
