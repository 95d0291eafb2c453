import QueryDriver.Codec.Marshal

/-! # Values off the wire

A datum or a term that stands for a value is read back. Numbers come back as doubles,
objects as dictionaries whose later entries replace earlier ones of the same key, and
an object that is marked as a time as a moment, unless times are asked for raw.
-/

namespace QueryDriver

open Wire

/-- Whether objects that are marked as times are read as moments. -/
inductive TimeFormat where
  | native | raw
deriving DecidableEq

/-- Everything but the word `raw` asks for moments. -/
def TimeFormat.ofValue (v : Value) : TimeFormat := if v.isOneOf ["raw"] then .raw else .native

namespace Value

/-- The zone of a time object: the one it names, or universal time if it names none. -/
def zoneOf (entries : List (Value × Value)) : Except Failure Duration :=
  match lookup entries "timezone" with
  | none => Zone.parse "+00:00"
  | some v => if v.truthy then Zone.ofValue v else Zone.parse "+00:00"

/-- The moment at a number of seconds from the start of 1970. -/
def momentAt (epoch : Double) (shown : String) (east : Duration) : Except Failure Value :=
  let moment :=
    if epoch.isFinite then Moment.ofEpochMicros (Duration.ofDouble epoch).micros east else none
  match moment with
  | some t => .ok (.moment t)
  | none => .error (.ofCause (.epochOutOfRange shown))

/-- The moment that a time object stands for. -/
def timeOf (entries : List (Value × Value)) : Except Failure Value :=
  match lookup entries "epoch_time" with
  | some (.double x) => do
    let east ← zoneOf entries
    momentAt x x.text east
  | some (.bool b) => do
    let east ← zoneOf entries
    momentAt (if b then Double.ofNat 1 else Double.zero) (if b then "True" else "False") east
  | _ => .error (.ofCause .epochMissing)

/-- The object is marked as a time. -/
def isTime (entries : List (Value × Value)) : Bool :=
  match lookup entries markKey with
  | some v => v.isOneOf [timeMark]
  | none => false

/-- An object as it is handed out. -/
def ofObject (format : TimeFormat) (entries : List (String × Value)) : Except Failure Value :=
  let merged := mergeEntries (entries.map fun e => (Value.text e.1, e.2))
  if format = .native ∧ isTime merged then timeOf merged else .ok (.dict merged)

end Value

mutual

/-- The value of a datum at a depth. -/
def Wire.Datum.unmarshal (format : TimeFormat) (depth : Int) (d : Datum) :
    Except Failure Value := do
  checkDepth depth
  match d with
  | ⟨tag, flag, number, text, items, entries⟩ =>
    match DatumType.ofCode? (tag.getD 0) with
    | some .null => return .null
    | some .bool => return .bool (flag.getD false)
    | some .number => return .double (number.getD Double.zero)
    | some .text => return .text (text.getD "")
    | some .array => return .list (← Datum.unmarshalItems format (depth + 1) items)
    | some .object => do
      let values ← Datum.unmarshalEntries format (depth + 1) entries
      Value.ofObject format values
    | none => throw (.ofCause (.unknownDatum (tag.getD 0).toInt))

def Wire.Datum.unmarshalItems (format : TimeFormat) (depth : Int) (items : List Datum) :
    Except Failure (List Value) :=
  match items with
  | [] => .ok []
  | d :: ds => do
    let v ← Datum.unmarshal format depth d
    let vs ← Datum.unmarshalItems format depth ds
    return v :: vs

def Wire.Datum.unmarshalEntries (format : TimeFormat) (depth : Int)
    (entries : List (Option String × Option Datum)) : Except Failure (List (String × Value)) :=
  match entries with
  | [] => .ok []
  | (key, value) :: es => do
    let v ← Datum.unmarshalValue format depth value
    let vs ← Datum.unmarshalEntries format depth es
    return (key.getD "", v) :: vs

/-- The value of an entry; an absent datum is one without a tag. -/
def Wire.Datum.unmarshalValue (format : TimeFormat) (depth : Int) (value : Option Datum) :
    Except Failure Value :=
  match value with
  | some d => Datum.unmarshal format depth d
  | none => do
    checkDepth depth
    throw (.ofCause (.unknownDatum 0))

end

mutual

/-- The value of a term that stands for one, at a depth. -/
def Wire.Term.unmarshal (format : TimeFormat) (depth : Int) (t : Term) :
    Except Failure Value := do
  checkDepth depth
  match t with
  | ⟨tag, datum, args, options⟩ =>
    let code := tag.getD 0
    if code = TermType.datum.code then Datum.unmarshalValue format depth datum
    else if code = TermType.makeArray.code then
      return .list (← Term.unmarshalArgs format (depth + 1) args)
    else if code = TermType.makeObject.code then do
      let values ← Term.unmarshalOptions format (depth + 1) options
      Value.ofObject format values
    else throw (.ofCause (.notAValue code.toInt))

def Wire.Term.unmarshalArgs (format : TimeFormat) (depth : Int) (args : List Term) :
    Except Failure (List Value) :=
  match args with
  | [] => .ok []
  | t :: ts => do
    let v ← Term.unmarshal format depth t
    let vs ← Term.unmarshalArgs format depth ts
    return v :: vs

def Wire.Term.unmarshalOptions (format : TimeFormat) (depth : Int)
    (options : List (Option String × Option Term)) : Except Failure (List (String × Value)) :=
  match options with
  | [] => .ok []
  | (key, value) :: os => do
    let v ← Term.unmarshalValue format depth value
    let vs ← Term.unmarshalOptions format depth os
    return (key.getD "", v) :: vs

/-- The value of an option; an absent term is one without a tag. -/
def Wire.Term.unmarshalValue (format : TimeFormat) (depth : Int) (value : Option Term) :
    Except Failure Value :=
  match value with
  | some t => Term.unmarshal format depth t
  | none => do
    checkDepth depth
    throw (.ofCause (.notAValue 0))

end

/-- The values of a list of datums. -/
def unmarshalAll (format : TimeFormat) (datums : List Datum) : Except Failure (List Value) :=
  Datum.unmarshalItems format 0 datums

end QueryDriver
