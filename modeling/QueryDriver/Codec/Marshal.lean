import QueryDriver.Codec.Zone
import QueryDriver.Value.Keys
import QueryDriver.Wire.Message

/-! # Values onto the wire

A host value is sent in one of two forms: as a term, where arrays and objects are
operations that make them, or as a datum, which is self-contained. Scalars are the same
in both. A moment with an offset becomes an object that is marked as a time, which is
one level deeper than the moment itself.

Both encoders count how deep they are and refuse what lies under more than
`depthLimit` containers.
-/

namespace QueryDriver

open Wire

/-- How deep values may nest. -/
def depthLimit : Int := 20

/-- The key that marks an object as standing for a value of another kind. -/
def markKey : String := "$reql_type$"

/-- The mark of times. -/
def timeMark : String := "TIME"

/-- Refuses a place under too many containers. -/
def checkDepth (depth : Int) : Except Failure Unit :=
  if depth > depthLimit then .error (.ofCause (.valueTooDeep depthLimit.toNat)) else .ok ()

/-- The value of a datum as a term. -/
def Wire.Term.ofDatum (d : Datum) : Term :=
  { Term.empty with tag := some TermType.datum.code, datum := some d }

/-- The term that makes an array. -/
def Wire.Term.makeArray (items : List Term) : Term :=
  { Term.empty with tag := some TermType.makeArray.code, args := items }

/-- The term that makes an object. -/
def Wire.Term.makeObject (entries : List (String × Term)) : Term :=
  { Term.empty with
    tag := some TermType.makeObject.code
    options := entries.map fun e => (some e.1, some e.2) }

/-- A number that a double can stand for on the wire. -/
def checkFinite (x : Double) : Except Failure Double :=
  if x.isFinite then .ok x else .error (.ofCause .notFinite)

namespace Value

/-- The double nearest to a real number; booleans count as zero and one. None for what
is not a real number. -/
def toDouble? (v : Value) : Option (Except Fault Double) :=
  match v with
  | .bool b => some (.ok (if b then Double.ofNat 1 else Double.zero))
  | .int n => some (match Double.ofInt? n with
    | some x => .ok x
    | none => .error .integerTooLarge)
  | .double x => some (.ok x)
  | .fraction num den => some (match Double.ofRatio (num < 0) num.natAbs den with
    | some x => .ok x
    | none => .error .fractionTooLarge)
  | _ => none

/-- The datum of a scalar; none for what is not a scalar. -/
def scalar? (v : Value) : Except Failure (Option Datum) :=
  match v with
  | .null => .ok (some Datum.null)
  | .bool b => .ok (some (Datum.ofBool b))
  | .text s => .ok (some (Datum.ofText s))
  | _ =>
    match v.toDouble? with
    | none => .ok none
    | some (.error f) => .error (.fault f)
    | some (.ok x) => (checkFinite x).map fun x => some (Datum.ofDouble x)

/-- The entries of the object that stands for a moment. -/
def timeEntries (t : Moment) : Except Failure (List (String × Datum)) :=
  match t.offset? with
  | none => .error (.ofCause .noZone)
  | some east =>
    match Zone.ofMoment t with
    | .error cause => .error (.ofCause cause)
    | .ok zone =>
      .ok [(markKey, Datum.ofText timeMark), ("epoch_time", Datum.ofDouble (t.epochSeconds east)),
        ("timezone", Datum.ofText zone)]

/-- The entries of the object that stands for a moment at a depth. -/
def timeEntriesAt (t : Moment) (depth : Int) : Except Failure (List (String × Datum)) := do
  let entries ← timeEntries t
  checkDepth (depth + 1)
  return entries

/-- The key of an entry, which has to be a text. -/
def textKey (key : Value) : Except Failure String :=
  match key with
  | .text s => .ok s
  | _ => .error (.ofCause (.keyNotText key.typeName))

mutual

/-- A value as a term, at a depth. -/
def marshal (v : Value) (depth : Int) : Except Failure Term := do
  checkDepth depth
  match v with
  | .moment t => do
    let entries ← timeEntriesAt t depth
    return Term.makeObject (entries.map fun e => (e.1, Term.ofDatum e.2))
  | .list items | .tuple items => (marshalItems items (depth + 1)).map Term.makeArray
  | .dict entries | .mapping entries =>
    (marshalEntries entries (depth + 1)).map Term.makeObject
  | _ =>
    match ← v.scalar? with
    | some d => return Term.ofDatum d
    | none => throw (.ofCause (.unsupported v.typeName))

def marshalItems (items : List Value) (depth : Int) : Except Failure (List Term) :=
  match items with
  | [] => .ok []
  | v :: vs => do
    let t ← marshal v depth
    let ts ← marshalItems vs depth
    return t :: ts

def marshalEntries (entries : List (Value × Value)) (depth : Int) :
    Except Failure (List (String × Term)) :=
  match entries with
  | [] => .ok []
  | (k, v) :: es => do
    let key ← textKey k
    let t ← marshal v depth
    let ts ← marshalEntries es depth
    return (key, t) :: ts

end

mutual

/-- A value as a datum, at a depth. -/
def toDatum (v : Value) (depth : Int) : Except Failure Datum := do
  checkDepth depth
  match v with
  | .moment t => do
    let entries ← timeEntriesAt t depth
    return Datum.ofEntries entries
  | .list items | .tuple items => (itemsToDatums items (depth + 1)).map Datum.ofList
  | .dict entries | .mapping entries => (entriesToDatums entries (depth + 1)).map Datum.ofEntries
  | _ =>
    match ← v.scalar? with
    | some d => return d
    | none => throw (.ofCause (.unsupported v.typeName))

def itemsToDatums (items : List Value) (depth : Int) : Except Failure (List Datum) :=
  match items with
  | [] => .ok []
  | v :: vs => do
    let d ← toDatum v depth
    let ds ← itemsToDatums vs depth
    return d :: ds

def entriesToDatums (entries : List (Value × Value)) (depth : Int) :
    Except Failure (List (String × Datum)) :=
  match entries with
  | [] => .ok []
  | (k, v) :: es => do
    let key ← textKey k
    let d ← toDatum v depth
    let ds ← entriesToDatums es depth
    return (key, d) :: ds

end

end Value

end QueryDriver
