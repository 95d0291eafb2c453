import QueryDriver.Number.Layout
import QueryDriver.Text.Blank
import QueryDriver.Text.Digit

/-! # Decimal numerals

A numeral is a decimal number that remembers the place of its last digit, so that `1.50`
and `1.5` are two numerals of one value. Beside the finite ones there are two infinities
and marks for no number, which may be signalling and carry a payload.

`Numeral.read` takes digits of any script with a point and an exponent, the words in any
mix of cases, and pays no attention to underscores. `Numeral.text` writes a numeral
positionally when no zeros have to be added behind its digits and at most five between
the point and them, else with an exponent.
-/

namespace QueryDriver

inductive Numeral where
  /-- The number `digits · 10 ^ exponent` with its sign. -/
  | finite (negative : Bool) (digits : Nat) (exponent : Int)
  | infinite (negative : Bool)
  | undefined (negative signalling : Bool) (payload : Nat)
deriving DecidableEq

namespace Numeral

/-- Why a text is no numeral. -/
inductive Flaw where
  | malformed
  /-- The first digit or the last one is too far from the point. -/
  | outOfRange
deriving DecidableEq

/-- The numeral is zero, of either sign. -/
def isZero : Numeral → Bool
  | finite _ n _ => n == 0
  | _ => false

/-- The numeral cannot be compared with another. -/
def isUndefined : Numeral → Bool
  | undefined .. => true
  | _ => false

/-! ### Writing -/

/-- Digits with a point behind the first `left` of them, which may be none or less. -/
def positional (ds : List Char) (left : Int) : String :=
  if left ≤ 0 then
    "0." ++ String.ofList (List.replicate (-left).toNat '0') ++ String.ofList ds
  else if ds.length ≤ left.toNat then String.ofList ds
  else String.ofList (ds.take left.toNat) ++ "." ++ String.ofList (ds.drop left.toNat)

/-- One digit before the point, and the power of ten that this leaves. -/
def scientific (ds : List Char) (power : Int) : String :=
  positional ds 1 ++ (if power < 0 then "E-" else "E+") ++ Layout.digits power.natAbs

/-- The number `n · 10 ^ exponent` without a sign. -/
def magnitudeText (n : Nat) (exponent : Int) : String :=
  let ds := Nat.toDigits 10 n
  let left : Int := exponent + ds.length
  if exponent ≤ 0 ∧ -6 < left then positional ds left else scientific ds (left - 1)

def text : Numeral → String
  | finite negative n e => (if negative then "-" else "") ++ magnitudeText n e
  | infinite negative => (if negative then "-" else "") ++ "Infinity"
  | undefined negative signalling payload =>
    (if negative then "-" else "") ++ (if signalling then "sNaN" else "NaN")
      ++ (if payload = 0 then "" else Layout.digits payload)

/-! ### Reading -/

/-- The greatest exponent of a first digit. -/
def greatestExponent : Int := 999999999999999999

/-- The least exponent of a last digit. -/
def leastExponent : Int := -1999999999999999997

/-- The number that digits denote, of which there has to be one. -/
def readDigits? (cs : List Char) : Option Nat :=
  if cs.isEmpty then none else Text.readDigits cs

/-- A sign, plus when there is none, and what is behind it. -/
def splitSign : List Char → Bool × List Char
  | '-' :: cs => (true, cs)
  | '+' :: cs => (false, cs)
  | cs => (false, cs)

/-- The exponent behind the digits, zero when there is none. -/
def readExponent? : List Char → Option Int
  | [] => some 0
  | _ :: cs =>
    let (negative, digits) := splitSign cs
    (readDigits? digits).map fun n => if negative then -(n : Int) else n

/-- Digits with a point and an exponent. -/
def readFinite? (cs : List Char) : Option (Nat × Int) := do
  let mantissa := cs.takeWhile (· != 'e')
  let exponent ← readExponent? (cs.drop mantissa.length)
  let whole := mantissa.takeWhile (· != '.')
  let places := mantissa.drop (whole.length + 1)
  let n ← readDigits? (whole ++ places)
  return (n, exponent - places.length)

/-- The payload behind a mark for no number, zero when there is none. -/
def readPayload? (cs : List Char) : Option Nat :=
  if cs.isEmpty then some 0 else Text.readDigits cs

/-- A finite numeral whose digits are within range. -/
def finiteOf (negative : Bool) (n : Nat) (exponent : Int) : Except Flaw Numeral :=
  if greatestExponent < exponent + Decimal.length n - 1 ∨ exponent < leastExponent then
    .error .outOfRange
  else .ok (finite negative n exponent)

/-- A numeral from characters without capitals. -/
def readUnsigned (negative : Bool) (cs : List Char) : Except Flaw Numeral :=
  match cs with
  | 's' :: 'n' :: 'a' :: 'n' :: payload => marked true payload
  | 'n' :: 'a' :: 'n' :: payload => marked false payload
  | ['i', 'n', 'f'] | ['i', 'n', 'f', 'i', 'n', 'i', 't', 'y'] => .ok (infinite negative)
  | _ =>
    match readFinite? cs with
    | some (n, e) => finiteOf negative n e
    | none => .error .malformed
where
  marked (signalling : Bool) (payload : List Char) : Except Flaw Numeral :=
    match readPayload? payload with
    | some n => .ok (undefined negative signalling n)
    | none => .error .malformed

/-- Reads a numeral. Blanks around it do not matter. -/
def read (s : String) : Except Flaw Numeral :=
  let cs := ((Text.trim s).toList.filter (· != '_')).map Char.toLower
  let (negative, rest) := splitSign cs
  readUnsigned negative rest

end Numeral

end QueryDriver
