import QueryDriver.Text.Digit
import QueryDriver.Value

/-! # Time zones as text

An offset from universal time is written with its sign, two digits of hours, a colon
and two digits of minutes. Reading is more lenient: `Z` is no offset, the colon may be
missing, the digits may be of any script, and one line break at the end is passed over.

The clock face of a zone is read first (`readClock?`), and only then is the offset held
against the bound that zones have, a day in either direction.
-/

namespace QueryDriver.Zone

/-- The offset of an instant is a whole number of minutes. -/
def isWholeMinutes (east : Duration) : Bool := east.micros % 60000000 == 0

/-- Sign, hours, colon, minutes. -/
def text (east : Duration) : String :=
  let minutes := east.micros / 60000000
  (if 0 ≤ minutes then "+" else "-") ++ Duration.padded 2 (minutes.natAbs / 60) ++ ":"
    ++ Duration.padded 2 (minutes.natAbs % 60)

/-- The text of the offset of a moment that has one. -/
def ofMoment (t : Moment) : Except Cause String :=
  match t.offset? with
  | none => .error .noZone
  | some east => if isWholeMinutes east then .ok (text east) else .error (.zoneNotWholeMinutes east)

/-- Two digits. -/
def readPair? (a b : Char) : Option Nat := do
  let x ← Text.digitValue? a
  let y ← Text.digitValue? b
  return 10 * x + y

/-- Two digits at the end of a text, with at most one line break behind them. -/
def readLast? : List Char → Option Nat
  | [a, b] => readPair? a b
  | [a, b, '\n'] => readPair? a b
  | _ => none

/-- Hours and minutes of a zone, behind the sign. -/
def readClock? : List Char → Option (Nat × Nat)
  | a :: b :: rest => do
    let hours ← readPair? a b
    let minutes ← readLast? (match rest with
      | ':' :: digits => digits
      | digits => digits)
    return (hours, minutes)
  | _ => none

/-- The offset that a text denotes, before it is held against the bound of zones. -/
def readOffset? : List Char → Option Duration
  | '+' :: clock => (readClock? clock).map fun c => .ofSeconds ((c.1 * 60 + c.2 : Nat) * 60)
  | '-' :: clock => (readClock? clock).map fun c => .ofSeconds (-((c.1 * 60 + c.2 : Nat) * 60))
  | _ => none

/-- Zones lie strictly within a day. -/
def inBounds (east : Duration) : Bool := east.micros.natAbs < 86400000000

/-- Holds an offset against the bound of zones. -/
def check (east : Duration) : Except Failure Duration :=
  if inBounds east then .ok east else .error (.fault (.offsetOutOfRange east))

/-- Reads the offset of a zone. -/
def parse (s : String) : Except Failure Duration :=
  if s = "Z" ∨ s = "z" then .ok ⟨0⟩
  else
    match readOffset? s.toList with
    | none => .error (.ofCause (.badZone s))
    | some east => check east

/-- Reads the offset of a zone from a value, which has to be a text. -/
def ofValue (v : Value) : Except Failure Duration :=
  match v with
  | .text s => parse s
  | .bytes _ => .error (.fault .zoneIsBytes)
  | _ => .error (.fault (.zoneNotText v.qualifiedTypeName))

end QueryDriver.Zone
