import QueryDriver.Value.Keys

/-! # Numbers of parameters

An operator that takes a function says how many parameters it passes, `-1` for any
number. The hint comes from the builders, where it is an integer, but a node can be made
by hand with any value in its place, so the rules are given for all values.
-/

namespace QueryDriver

/-- What is wrong with asking whether a value without a place in the order of the numbers
is below an integer. A mapping answers as the dictionary that it shows. -/
def Value.refusesOrder (v : Value) : Fault :=
  match v with
  | .mapping _ => .cannotCompare "<" "dict" "int"
  | _ => .cannotCompare "<" v.qualifiedTypeName "int"

/-- What is wrong with asking whether an integer is above such a value. -/
def Value.refusesReversed (v : Value) : Fault :=
  match v with
  | .mapping _ => v.refusesOrder
  | _ => .cannotCompare ">" "int" v.qualifiedTypeName

/-- Whether a value is equal to an integer. A signalling mark for no number refuses to be
compared. -/
def Value.equalsInt (v : Value) (n : Int) : Except Fault Bool :=
  match v with
  | .decimal (.undefined _ true _) => .error .invalidDecimal
  | _ => .ok (v.isInt n)

/-- The number of parameters to hand out for a hint: none below zero, and for the rest
the hint itself, which has to be an integer. -/
def Value.parameterCount (hint : Value) : Except Fault Nat :=
  match hint.belowInt 0 hint.refusesReversed with
  | .error fault => .error fault
  | .ok true => .ok 0
  | .ok false =>
    match hint with
    | .int n => .ok n.toNat
    | .bool b => .ok (if b then 1 else 0)
    | _ => .error (.cannotCount hint.qualifiedTypeName)

theorem Value.parameterCount_int (n : Int) :
    (Value.int n).parameterCount = .ok n.toNat := by
  by_cases h : n < 0
  · have : n.toNat = 0 := by omega
    simp [parameterCount, belowInt, ordered?, magnitude?, Magnitude.below_ofInt, h, this]
  · simp [parameterCount, belowInt, ordered?, magnitude?, Magnitude.below_ofInt, h]

namespace Face

/-- How many placeholders a callable is rendered with under a hint. -/
def placeholders (f : Face) (hint : Value) : Except Failure Nat :=
  match f.arity with
  | .error cause => .error (.ofCause cause)
  | .ok (some n) => .ok n
  | .ok none =>
    match hint.parameterCount with
    | .error fault => .error (.fault fault)
    | .ok n => .ok n

/-- Whether a call with `n` placeholders binds. -/
def admits (f : Face) (n : Nat) : Except Failure Unit :=
  match f.signature with
  | .error _ => .ok ()
  | .ok s =>
    match s.admits f.callee n with
    | .error fault => .error (.fault fault)
    | .ok () => .ok ()

/-- Calls of the callable are counted: it is neither a class nor a function of the host. -/
def isCounted (f : Face) : Bool := !f.isShared

end Face

end QueryDriver
