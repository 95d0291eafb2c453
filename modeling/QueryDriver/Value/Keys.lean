import QueryDriver.Value

/-! # Keys

A dictionary keeps one entry for keys that are equal, and two keys of different
classes are equal when they are numbers of the same value. Numbers are compared as
exact ratios with a power of ten, so that no rounding makes two keys one and no power is
worked out that is beyond the other number.

`Value.enter` is the one way in which dictionaries are filled: a key that is there
already keeps its place and gets the new value.
-/

namespace QueryDriver.Value

/-! ### Numbers -/

/-- The value of a number: a ratio with a power of ten, an infinity, or no number at
all. -/
inductive Magnitude where
  /-- The number `num / den · 10 ^ exponent`. -/
  | finite (num : Int) (den : Nat) (exponent : Int)
  | infinite (negative : Bool)
  | undefined

namespace Magnitude

/-- An integer as a magnitude. -/
def ofInt (n : Int) : Magnitude := .finite n 1 0

/-- A ratio as a magnitude. -/
def ofRatio (num : Int) (den : Nat) : Magnitude := .finite num den 0

/-- How two integers are ordered. -/
def orderOf (a b : Int) : Ordering := if a < b then .lt else if b < a then .gt else .eq

/-- How `a · 10 ^ k` and `b` are ordered. The power decides by itself when it has more
digits than `b`. -/
def scaledOrder (a : Int) (k : Nat) (b : Int) : Ordering :=
  if a = 0 then orderOf 0 b
  else if Decimal.length b.natAbs < k then (if a < 0 then .lt else .gt)
  else orderOf (a * Decimal.power k) b

/-- How two ratios with powers of ten are ordered, the denominators being positive. -/
def finiteOrder (num : Int) (den : Nat) (e : Int) (num' : Int) (den' : Nat) (e' : Int) :
    Ordering :=
  if e' ≤ e then scaledOrder (num * den') (e - e').toNat (num' * den)
  else (scaledOrder (num' * den) (e' - e).toNat (num * den')).swap

/-- Two magnitudes are equal as numbers. -/
def same : Magnitude → Magnitude → Bool
  | .finite a b c, .finite a' b' c' => (finiteOrder a b c a' b' c').isEq
  | .infinite a, .infinite b => a == b
  | _, _ => false

/-- The first magnitude is below the second. -/
def below : Magnitude → Magnitude → Bool
  | .finite a b c, .finite a' b' c' => (finiteOrder a b c a' b' c').isLT
  | .finite .., .infinite negative => !negative
  | .infinite negative, .finite .. => negative
  | .infinite a, .infinite b => a && !b
  | _, _ => false

/-- Integers are ordered as they are. -/
theorem finiteOrder_ofInt (a b : Int) : finiteOrder a 1 0 b 1 0 = orderOf a b := by
  by_cases h : a = 0 <;> simp [finiteOrder, scaledOrder, Decimal.power, h]

theorem below_ofInt (a b : Int) : (ofInt a).below (ofInt b) = decide (a < b) := by
  simp only [ofInt, below, finiteOrder_ofInt, orderOf]
  by_cases h : a < b
  · simp [h]
  · by_cases h' : b < a <;> simp [h, h']

/-- The magnitude of a double. -/
def ofDouble (x : Double) : Magnitude :=
  if x.isNaN then .undefined
  else if x.isInfinite then .infinite x.negative
  else ofRatio x.exact.1 x.exact.2

/-- The magnitude of a numeral. -/
def ofNumeral : Numeral → Magnitude
  | .finite negative n e => .finite (if negative then -(n : Int) else n) 1 e
  | .infinite negative => .infinite negative
  | .undefined .. => .undefined

end Magnitude

/-- The magnitude of a value that is a number. -/
def magnitude? : Value → Option Magnitude
  | .bool b => some (.ofInt (if b then 1 else 0))
  | .int n => some (.ofInt n)
  | .double x => some (.ofDouble x)
  | .fraction num den => some (.ofRatio num den)
  | .decimal n => some (.ofNumeral n)
  | .complex re im => if im.isZero then some (.ofDouble re) else none
  | _ => none

/-- The magnitude of a value that has a place in the order of the numbers. -/
def ordered? (v : Value) : Option Magnitude :=
  match v with
  | .complex .. => none
  | _ => v.magnitude?

/-- The value is equal to an integer. -/
def isInt (v : Value) (n : Int) : Bool :=
  match v.magnitude? with
  | some m => m.same (.ofInt n)
  | none => false

/-- The value is below an integer; `refusal` is what is wrong with comparing a value that
has no place in the order of the numbers. -/
def belowInt (v : Value) (n : Int) (refusal : Fault) : Except Fault Bool :=
  match v, v.ordered? with
  | .decimal d, some m => if d.isUndefined then .error .invalidDecimal else .ok (m.below (.ofInt n))
  | _, some m => .ok (m.below (.ofInt n))
  | _, none => .error refusal

/-! ### Equality -/

/-- Two moments name the same point in time, or have the same reading when neither has
an offset. -/
def sameMoment (a b : Moment) : Bool :=
  match a.offset?, b.offset? with
  | some x, some y => a.epochMicros x == b.epochMicros y
  | none, none => a.localMicros == b.localMicros
  | _, _ => false

/-- Two doubles are equal as numbers. -/
def sameDouble (x y : Double) : Bool := (Magnitude.ofDouble x).same (Magnitude.ofDouble y)

mutual

/-- Two keys are equal. Objects, callables and expressions are only equal to themselves,
and two of them that are written separately are two, unless there is only one of them. -/
def same : Value → Value → Bool
  | .tuple as, b =>
    match b with
    | .tuple bs => sameItems as bs
    | _ => false
  | .tableSpec n p d c u, b =>
    match b with
    | .tableSpec n' p' d' c' u' =>
      n == n' && same p p' && same d d' && same c c' && u == u'
    | _ => false
  | a, b =>
    match a.magnitude?, b.magnitude? with
    | some x, some y => x.same y
    | some _, none | none, some _ => false
    | none, none =>
      match a, b with
      | .null, .null | .absent, .absent | .row, .row => true
      | .placeholder m, .placeholder n => m == n
      | .text s, .text t => s == t
      | .bytes s, .bytes t => s == t
      | .moment s, .moment t => sameMoment s t
      | .duration s, .duration t => s == t
      | .operator s, .operator t => s == t
      | .complex s t, .complex s' t' => sameDouble s s' && sameDouble t t'
      | .func f _, .func g _ => f.isShared && f.shown == g.shown
      | _, _ => false

/-- Two lists of keys are equal item by item. -/
def sameItems : List Value → List Value → Bool
  | [], [] => true
  | a :: as, b :: bs => same a b && sameItems as bs
  | _, _ => false

end

mutual

/-- What keeps a value from being a key, which may lie in one of its parts. -/
def keyFault? : Value → Option Fault
  | .list _ => some (.unhashable "list")
  | .dict _ => some (.unhashable "dict")
  | .set _ => some (.unhashable "set")
  | .slice .. => some (.unhashable "slice")
  | .mapping _ => some (.unhashable "mappingproxy")
  | .decimal (.undefined _ true _) => some .unhashableSignal
  | .tuple items => itemKeyFault? items
  | .tableSpec _ p d c _ => (keyFault? p).or ((keyFault? d).or (keyFault? c))
  | _ => none

def itemKeyFault? : List Value → Option Fault
  | [] => none
  | v :: vs => (keyFault? v).or (itemKeyFault? vs)

end

/-! ### Dictionaries and sets -/

/-- Enters a value under a key. -/
def insertKey : List (Value × Value) → Value → Value → List (Value × Value)
  | [], k, v => [(k, v)]
  | (k', v') :: es, k, v =>
    if same k' k then (k', v) :: es else (k', v') :: insertKey es k v

/-- Enters a value under a key, which has to be fit for one. -/
def enter (entries : List (Value × Value)) (k v : Value) :
    Except Fault (List (Value × Value)) :=
  match keyFault? k with
  | some fault => .error fault
  | none => .ok (insertKey entries k v)

/-- Adds an item to the items of a set, unless it is there already. -/
def addItem (items : List Value) (v : Value) : Except Fault (List Value) :=
  match keyFault? v with
  | some fault => .error fault
  | none => .ok (if items.any (same · v) then items else items ++ [v])

/-- The value under a text key. -/
def lookup (entries : List (Value × Value)) (key : String) : Option Value :=
  (entries.find? fun e => same e.1 (.text key)).map (·.2)

/-- The entries that remain of a list of them, later values replacing earlier ones. -/
def mergeEntries (entries : List (Value × Value)) : List (Value × Value) :=
  entries.foldl (fun found e => insertKey found e.1 e.2) []

/-- A dictionary from texts to values, later values replacing earlier ones. -/
def ofTextEntries (entries : List (String × Value)) : Value :=
  .dict (mergeEntries (entries.map fun e => (.text e.1, e.2)))

end QueryDriver.Value
