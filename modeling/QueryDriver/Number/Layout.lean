import QueryDriver.Number.Shortest

/-! # How numbers are written

The digits of a number are chosen in `Number.Shortest`; this module places the
point. A `Layout` holds the decisions of one written format, and `Layout.write`
is the one function that follows them.

Two formats are in use. `Double.text` writes the shortest digits, positionally
from `0.0001` up to `10 ^ 16`, and an integer keeps `.0`. `Double.compactText`
writes fifteen digits, or seventeen where fifteen do not read back, and drops
what carries no information.
-/

namespace QueryDriver

/-- The decisions of a number format. -/
structure Layout where
  /-- The least decimal exponent that is written positionally. -/
  least : Int
  /-- The first decimal exponent that is written with an exponent. -/
  limit : Int
  /-- Whether an integer written positionally ends in `.0`. -/
  keepsPoint : Bool

namespace Layout

/-- The decimal digits of a natural number. -/
def digits (n : Nat) : String := String.ofList (Nat.toDigits 10 n)

/-- An exponent with its sign and at least two digits. -/
def exponent (e : Int) : String :=
  let n := digits e.natAbs
  (if e < 0 then "e-" else "e+") ++ (if n.length < 2 then "0" ++ n else n)

/-- Writes a decimal whose last digit is not zero. -/
def write (l : Layout) (negative : Bool) (d : Decimal) : String :=
  let ds := Nat.toDigits 10 d.digits
  let e : Int := d.exponent + ds.length - 1
  let body :=
    if e < l.least ∨ l.limit ≤ e then
      String.ofList (ds.take 1) ++ (if ds.length ≤ 1 then "" else "." ++ String.ofList (ds.drop 1))
        ++ exponent e
    else if e < 0 then
      "0." ++ String.ofList (List.replicate (-e - 1).toNat '0') ++ String.ofList ds
    else
      let whole := (e + 1).toNat
      String.ofList (ds.take whole) ++ String.ofList (List.replicate (whole - ds.length) '0')
        ++ (if whole < ds.length then "." ++ String.ofList (ds.drop whole)
            else if l.keepsPoint then ".0" else "")
  (if negative then "-" else "") ++ body

end Layout

namespace Double

/-- The texts of the numbers that have no digits. -/
def special? (x : Double) : Option String :=
  if x.isNaN then some "nan"
  else if x.isInfinite then some (if x.negative then "-inf" else "inf")
  else none

/-- The shortest text that reads back, as expressions and messages show it. -/
def text (x : Double) : String :=
  match x.special? with
  | some s => s
  | none =>
    Layout.write ⟨-4, 16, true⟩ x.negative (if x.isZero then ⟨0, 0⟩ else x.shortest)

/-- The text with at most `n` digits. -/
def general (x : Double) (n : Nat) : String :=
  Layout.write ⟨-4, n, false⟩ x.negative (if x.isZero then ⟨0, 0⟩ else x.rounded n)

/-- Fifteen digits where they read back, else seventeen, as error details show it. -/
def compactText (x : Double) : String :=
  match x.special? with
  | some s => s
  | none =>
    if x.isZero ∨ (x.rounded 15).toDouble? x.negative = some x then x.general 15
    else x.general 17

end Double

end QueryDriver
