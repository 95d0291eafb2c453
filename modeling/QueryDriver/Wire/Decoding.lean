import QueryDriver.Wire.Encoding

/-! # Bytes as messages

Reading goes in two steps. `readFields` splits bytes into fields, each a number with
a payload, and fails where the bytes are cut short or a key makes no sense. The
functions `decode` then pick the fields they know: of a single field given several
times the last one counts, a nested message given several times is the message of
all its parts, and a field with an unknown number or an unexpected form of payload
is passed over.

Nested messages are read down to a depth `limit`; messages within the protocol's own
limit are read by `decode`.
-/

namespace QueryDriver.Wire

/-- What stands behind a key. -/
inductive Payload where
  | word (n : UInt64)
  | eight (n : UInt64)
  | bytes (bs : Bytes)
  /-- Four fixed bytes or a group, which no known field uses. -/
  | skipped

/-- A field of a message. -/
structure Field where
  number : Nat
  payload : Payload

/-- Reads a variable length integer of at most `count` bytes. -/
def readVarint : Nat → Bytes → Option (Nat × Bytes)
  | 0, _ => none
  | _ + 1, [] => none
  | count + 1, b :: bs =>
    if b < 128 then some (b.toNat, bs)
    else do
      let (n, rest) ← readVarint count bs
      return (b.toNat - 128 + 128 * n, rest)

/-- A 64-bit word, of at most ten bytes. -/
def readWord (bs : Bytes) : Option (UInt64 × Bytes) := do
  let (n, rest) ← readVarint 10 bs
  return (UInt64.ofNat n, rest)

/-- The first `count` bytes, when there are so many. -/
def readBlock (count : Nat) (bs : Bytes) : Option (Bytes × Bytes) :=
  if count ≤ bs.length then some (bs.take count, bs.drop count) else none

/-- A key: the number of a field and the form of its payload. -/
def readKey (bs : Bytes) : Option (Nat × Nat × Bytes) := do
  let (n, rest) ← readVarint 5 bs
  if n < 4294967296 ∧ 8 ≤ n then some (n / 8, n % 8, rest) else none

/-- A length and as many bytes. -/
def readSized (bs : Bytes) : Option (Bytes × Bytes) := do
  let (n, rest) ← readVarint 10 bs
  if n < 2147483648 then readBlock n rest else none

/-- Passes over the fields of a group up to its end. -/
def skipGroup : Nat → Nat → Bytes → Option Bytes
  | 0, _, _ => none
  | fuel + 1, group, bs => do
    let (number, form, rest) ← readKey bs
    match form with
    | 0 =>
      let (_, rest) ← readWord rest
      skipGroup fuel group rest
    | 1 =>
      let (_, rest) ← readBlock 8 rest
      skipGroup fuel group rest
    | 2 =>
      let (_, rest) ← readSized rest
      skipGroup fuel group rest
    | 3 =>
      let rest ← skipGroup fuel number rest
      skipGroup fuel group rest
    | 4 => if number = group then some rest else none
    | 5 =>
      let (_, rest) ← readBlock 4 rest
      skipGroup fuel group rest
    | _ => none

/-- One field and what follows it. -/
def readField (bs : Bytes) : Option (Field × Bytes) := do
  let (number, form, rest) ← readKey bs
  match form with
  | 0 =>
    let (n, rest) ← readWord rest
    return (⟨number, .word n⟩, rest)
  | 1 =>
    let (block, rest) ← readBlock 8 rest
    return (⟨number, .eight (UInt64.ofNat (ofLittleEndian block))⟩, rest)
  | 2 =>
    let (block, rest) ← readSized rest
    return (⟨number, .bytes block⟩, rest)
  | 3 =>
    let rest ← skipGroup (rest.length + 1) number rest
    return (⟨number, .skipped⟩, rest)
  | 5 =>
    let (_, rest) ← readBlock 4 rest
    return (⟨number, .skipped⟩, rest)
  | _ => none

/-- At most `fuel` fields, which have to be all there is. -/
def readFieldsWithin : Nat → Bytes → Option (List Field)
  | _, [] => some []
  | 0, _ :: _ => none
  | fuel + 1, b :: bs => do
    let (field, rest) ← readField (b :: bs)
    let fields ← readFieldsWithin fuel rest
    return field :: fields

/-- The fields of a message. A field is never empty, so there are no more of them
than bytes. -/
def readFields (bs : Bytes) : Option (List Field) := readFieldsWithin bs.length bs

/-- The last word given for a field. -/
def lastWord? (number : Nat) (fields : List Field) : Option UInt64 :=
  fields.foldl (fun found f =>
    match f.payload with
    | .word n => if f.number = number then some n else found
    | _ => found) none

/-- The last eight bytes given for a field. -/
def lastEight? (number : Nat) (fields : List Field) : Option UInt64 :=
  fields.foldl (fun found f =>
    match f.payload with
    | .eight n => if f.number = number then some n else found
    | _ => found) none

/-- All the byte strings given for a field, in order. -/
def blocks (number : Nat) (fields : List Field) : List Bytes :=
  fields.filterMap fun f =>
    match f.payload with
    | .bytes bs => if f.number = number then some bs else none
    | _ => none

def int32Of (number : Nat) (fields : List Field) : Option Int32 :=
  (lastWord? number fields).map fun n => n.toInt64.toInt32

def int64Of (number : Nat) (fields : List Field) : Option Int64 :=
  (lastWord? number fields).map fun n => n.toInt64

def boolOf (number : Nat) (fields : List Field) : Option Bool :=
  (lastWord? number fields).map fun n => n != 0

def doubleOf (number : Nat) (fields : List Field) : Option Double :=
  (lastEight? number fields).map Double.mk

/-- The text of bytes, when they encode one. -/
def textOfBytes? (bs : Bytes) : Option String := String.fromUTF8? ⟨bs.toArray⟩

/-- The last text given for a field; all of them have to be texts. -/
def textOf (number : Nat) (fields : List Field) : Option (Option String) := do
  let texts ← (blocks number fields).mapM textOfBytes?
  return texts.getLast?

/-- A nested message: absent, or the message of all its parts, each of which has to
be one by itself. -/
def messageOf {α : Type} (decode : Bytes → Option α) (number : Nat) (fields : List Field) :
    Option (Option α) :=
  match blocks number fields with
  | [] => some none
  | [bs] => (decode bs).map some
  | parts => do
    let _ ← parts.mapM decode
    let whole ← decode parts.flatten
    return some whole

/-- A key with its value. -/
def decodePair {α : Type} (decode : Bytes → Option α) (bs : Bytes) :
    Option (Option String × Option α) := do
  let fields ← readFields bs
  let key ← textOf 1 fields
  let value ← messageOf decode 2 fields
  return (key, value)

/-- Reads a datum nested at most `limit` deep. -/
def Datum.decodeWithin : Nat → Bytes → Option Datum
  | 0, _ => none
  | limit + 1, bs => do
    let fields ← readFields bs
    let text ← textOf 4 fields
    let items ← (blocks 5 fields).mapM (Datum.decodeWithin limit)
    let entries ← (blocks 6 fields).mapM (decodePair (Datum.decodeWithin limit))
    return ⟨int32Of 1 fields, boolOf 2 fields, doubleOf 3 fields, text, items, entries⟩

/-- Reads a term nested at most `limit` deep. -/
def Term.decodeWithin : Nat → Bytes → Option Term
  | 0, _ => none
  | limit + 1, bs => do
    let fields ← readFields bs
    let datum ← messageOf (Datum.decodeWithin (limit + 1)) 2 fields
    let args ← (blocks 3 fields).mapM (Term.decodeWithin limit)
    let options ← (blocks 4 fields).mapM (decodePair (Term.decodeWithin limit))
    return ⟨int32Of 1 fields, datum, args, options⟩

/-- Reads a query nested at most `limit` deep. -/
def Query.decodeWithin (limit : Nat) (bs : Bytes) : Option Query := do
  let fields ← readFields bs
  let term ← messageOf (Term.decodeWithin limit) 2 fields
  let options ← (blocks 6 fields).mapM (decodePair (Term.decodeWithin limit))
  return ⟨int32Of 1 fields, term, int64Of 3 fields, boolOf 4 fields, options⟩

/-- Reads a step of a backtrace. -/
def Frame.decode (bs : Bytes) : Option Frame := do
  let fields ← readFields bs
  let option ← textOf 3 fields
  return ⟨int32Of 1 fields, int64Of 2 fields, option⟩

/-- Reads a backtrace. -/
def decodeBacktrace (bs : Bytes) : Option (List Frame) := do
  let fields ← readFields bs
  (blocks 1 fields).mapM Frame.decode

/-- Reads a response nested at most `limit` deep. -/
def Response.decodeWithin (limit : Nat) (bs : Bytes) : Option Response := do
  let fields ← readFields bs
  let values ← (blocks 3 fields).mapM (Datum.decodeWithin limit)
  let backtrace ← messageOf decodeBacktrace 4 fields
  return ⟨int32Of 1 fields, int64Of 2 fields, values, backtrace⟩

/-- How deep messages may nest. -/
def nestingLimit : Nat := 100

def Query.decode (bs : Bytes) : Option Query := Query.decodeWithin nestingLimit bs

def Response.decode (bs : Bytes) : Option Response := Response.decodeWithin nestingLimit bs

end QueryDriver.Wire
