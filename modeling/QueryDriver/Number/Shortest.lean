import QueryDriver.Number.Double

/-! # The shortest decimal that reads back

A positive double stands for every real number that rounds to it, an interval
around its exact value. `shortest` is the decimal with the fewest digits inside
that interval, and of those the nearest to the exact value. It is found on the
decimal grids from coarse to fine: on each grid only the two neighbours of the
exact value can be nearest, so only they are tried.

`rounded` is the decimal with a given number of digits nearest to the exact value.
-/

namespace QueryDriver

/-- The number `digits · 10 ^ exponent`. -/
structure Decimal where
  digits : Nat
  exponent : Int
deriving DecidableEq

namespace Decimal

/-- The power of ten with a natural exponent. -/
def power (k : Nat) : Nat := Nat.pow 10 k

/-- How many decimal digits a natural number is written with. -/
def length (n : Nat) : Nat := (Nat.toDigits 10 n).length

/-- The integer part of the logarithm to base ten of `num / den`, both positive. -/
def floorLog10 (num den : Nat) : Int :=
  let e : Int := (length num : Int) - (length den : Int)
  let reached : Bool :=
    if 0 ≤ e then den * power e.toNat ≤ num else den ≤ num * power (-e).toNat
  if reached then e else e - 1

/-- Drops the zeros at the end, at most `fuel` of them. -/
def stripZeros : Nat → Decimal → Decimal
  | 0, d => d
  | fuel + 1, d =>
    if d.digits ≠ 0 ∧ d.digits % 10 = 0 then stripZeros fuel ⟨d.digits / 10, d.exponent + 1⟩
    else d

/-- The same number with a last digit other than zero. -/
def normalize (d : Decimal) : Decimal := stripZeros (length d.digits) d

/-- The ratio that a decimal stands for. -/
def ratio (d : Decimal) : Nat × Nat :=
  if 0 ≤ d.exponent then (d.digits * power d.exponent.toNat, 1)
  else (d.digits, power (-d.exponent).toNat)

/-- The double nearest to a decimal. -/
def toDouble? (negative : Bool) (d : Decimal) : Option Double :=
  Double.ofRatio negative d.ratio.1 d.ratio.2

end Decimal

namespace Double

/-- The interval of the numbers that round to a positive finite double, in quarters
of the last place of its significand: lower end, exact value, upper end. Below a
power of two the neighbour is only half as far. -/
def interval (x : Double) : Nat × Nat × Nat :=
  let m := x.significand
  let below := if m = hiddenBit ∧ 1 < x.exponentField then 1 else 2
  (4 * m - below, 4 * m, 4 * m + 2)

/-- The neighbour of the exact value on the grid `10 ^ k` that reads back and is
nearest, when one of the two reads back. -/
def onGrid (x : Double) (k : Int) : Option Nat :=
  let unit := x.scale - 2
  let up := (if k < 0 then Decimal.power (-k).toNat else 1) <<< unit.toNat
  let down := (if 0 ≤ k then Decimal.power k.toNat else 1) <<< (-unit).toNat
  let (low, mid, high) := x.interval
  let c := mid * up / down
  let even := x.significand % 2 = 0
  let lowIn : Bool := if even then low * up ≤ c * down else low * up < c * down
  let highIn : Bool := if even then (c + 1) * down ≤ high * up else (c + 1) * down < high * up
  match lowIn, highIn with
  | false, false => none
  | true, false => some c
  | false, true => some (c + 1)
  | true, true =>
    let twice := 2 * (mid * up)
    let middle := (2 * c + 1) * down
    if twice < middle then some c
    else if middle < twice then some (c + 1)
    else if c % 2 = 0 then some c else some (c + 1)

/-- Tries the grids that leave `n`, `n + 1`, … digits; `top` is the place of the
first digit. Seventeen digits always read back. -/
def shortestFrom (x : Double) (top : Int) : Nat → Nat → Decimal
  | 0, n => ⟨(x.onGrid (top - n + 1)).getD 0, top - n + 1⟩
  | fuel + 1, n =>
    match x.onGrid (top - n + 1) with
    | some c => ⟨c, top - n + 1⟩
    | none => shortestFrom x top fuel (n + 1)

/-- The shortest decimal that reads back as the magnitude of a finite double other
than zero. -/
def shortest (x : Double) : Decimal :=
  (x.shortestFrom (Decimal.floorLog10 x.ratio.1 x.ratio.2) 16 1).normalize

/-- The decimal of `n` digits nearest to the magnitude of a finite double other than
zero, a half going to the even digit. -/
def rounded (x : Double) (n : Nat) : Decimal :=
  let (num, den) := x.ratio
  let k : Int := Decimal.floorLog10 num den - n + 1
  let c := if 0 ≤ k then roundDiv num (den * Decimal.power k.toNat)
    else roundDiv (num * Decimal.power (-k).toNat) den
  (Decimal.mk c k).normalize

end Double

end QueryDriver
