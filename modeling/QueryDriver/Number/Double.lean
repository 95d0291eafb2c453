/-! # Doubles by their bits

A `Double` is the 64-bit pattern of a binary floating point number. All that the
library asks of one is answered in exact arithmetic on the decoded pattern: a
finite double is `significand · 2 ^ scale` with its sign. Nothing here goes
through the machine's own arithmetic, so every rule can be reasoned about.

`roundDiv` rounds a quotient to the nearest integer, a half going to the even
neighbour, and `Double.ofRatio` rounds a ratio to the nearest double by it. The
only failure of a conversion is overflow, which is `none`.
-/

namespace QueryDriver

/-- The integer nearest to `num / den`; of two nearest ones, the even. -/
def roundDiv (num den : Nat) : Nat :=
  let q := num / den
  let r := num % den
  if 2 * r < den then q
  else if den < 2 * r then q + 1
  else if q % 2 = 0 then q else q + 1

/-- A multiple of the divisor is divided exactly. -/
theorem roundDiv_mul_left (q den : Nat) (h : 0 < den) : roundDiv (q * den) den = q := by
  simp [roundDiv, Nat.mul_div_cancel _ h, h]

/-- The integer part of the logarithm to base two of `num / den`, both positive. -/
def floorLog2 (num den : Nat) : Int :=
  let e : Int := (num.log2 : Int) - (den.log2 : Int)
  let reached : Bool :=
    if 0 ≤ e then den <<< e.toNat ≤ num else den ≤ num <<< (-e).toNat
  if reached then e else e - 1

/-- A binary floating point number of 64 bits, as its bit pattern. -/
structure Double where
  bits : UInt64
deriving DecidableEq, Inhabited

namespace Double

/-- The sign bit. -/
def negative (x : Double) : Bool := x.bits >>> 63 == 1

/-- The biased exponent: eleven bits. -/
def exponentField (x : Double) : Nat := ((x.bits >>> 52) &&& 0x7ff).toNat

/-- The stored fraction: fifty-two bits. -/
def fractionField (x : Double) : Nat := (x.bits &&& 0xfffffffffffff).toNat

def isFinite (x : Double) : Bool := x.exponentField != 2047

def isNaN (x : Double) : Bool := x.exponentField == 2047 && x.fractionField != 0

def isInfinite (x : Double) : Bool := x.exponentField == 2047 && x.fractionField == 0

def isZero (x : Double) : Bool := x.exponentField == 0 && x.fractionField == 0

/-- The bit in front of the stored fraction, which normal doubles have and do not store:
the power `2 ^ 52`. -/
def hiddenBit : Nat := 0x10000000000000

/-- The integer significand of a finite double, hidden bit included. -/
def significand (x : Double) : Nat :=
  if x.exponentField = 0 then x.fractionField else x.fractionField + hiddenBit

/-- The power of two that the significand of a finite double is scaled by. -/
def scale (x : Double) : Int :=
  if x.exponentField = 0 then -1074 else (x.exponentField : Int) - 1075

/-- The double with the given sign, biased exponent and fraction. -/
def ofFields (negative : Bool) (exponent fraction : Nat) : Double :=
  ⟨UInt64.ofNat ((if negative then 0x8000000000000000 else 0) + exponent * hiddenBit + fraction)⟩

def zero : Double := ⟨0⟩

def nan : Double := ⟨0x7ff8000000000000⟩

def infinity (negative : Bool) : Double := ofFields negative 2047 0

/-- The double `± m · 2 ^ q` for a significand that fits, absent when the exponent
is beyond the largest. -/
def ofParts (negative : Bool) (m : Nat) (q : Int) : Option Double :=
  if m < hiddenBit then some (ofFields negative 0 m)
  else
    let exponent := (q + 1075).toNat
    if exponent < 2047 then some (ofFields negative exponent (m - hiddenBit)) else none

/-- The double nearest to `± num / den`, a half going to the even significand;
`none` when it is too large for a double. -/
def ofRatio (negative : Bool) (num den : Nat) : Option Double :=
  if num = 0 then some (ofFields negative 0 0)
  else
    let q : Int := max (floorLog2 num den - 52) (-1074)
    let m := if 0 ≤ q then roundDiv num (den <<< q.toNat)
      else roundDiv (num <<< (-q).toNat) den
    if m = 2 * hiddenBit then ofParts negative hiddenBit (q + 1) else ofParts negative m q

/-- The double nearest to an integer. -/
def ofInt? (n : Int) : Option Double := ofRatio (n < 0) n.natAbs 1

/-- A small natural number as a double. -/
def ofNat (n : Nat) : Double := (ofRatio false n 1).getD (infinity false)

/-- The magnitude of a finite double as a ratio of integers. -/
def ratio (x : Double) : Nat × Nat :=
  if 0 ≤ x.scale then (x.significand <<< x.scale.toNat, 1)
  else (x.significand, 1 <<< (-x.scale).toNat)

/-- The integer part of a finite double, toward zero. -/
def truncate (x : Double) : Int :=
  let n : Int := ((x.ratio.1 / x.ratio.2 : Nat) : Int)
  if x.negative then -n else n

/-- The double is below or equal to zero. -/
def nonpositive (x : Double) : Bool := !x.isNaN && (x.negative || x.isZero)

/-- The exact value of a finite double as a numerator over a positive denominator. -/
def exact (x : Double) : Int × Nat :=
  ((if x.negative then -(x.ratio.1 : Int) else (x.ratio.1 : Int)), x.ratio.2)

/-- The machine number of the same bits. -/
def toFloat (x : Double) : Float := Float.ofBits x.bits

/-- The bits of a machine number. -/
def ofFloat (x : Float) : Double := ⟨x.toBits⟩

end Double

end QueryDriver
