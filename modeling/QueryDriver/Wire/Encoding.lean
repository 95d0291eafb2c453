import QueryDriver.Wire.Message

/-! # Messages as bytes

A message is written field by field in ascending order of the field numbers, each
field behind a key that holds its number and the form of its payload: a variable
length integer, eight bytes of a double, or a length and that many bytes. Negative
integers are written as the 64-bit word of the same value, ten bytes long. Absent
fields leave no trace.
-/

namespace QueryDriver.Wire

abbrev Bytes := List UInt8

/-- A natural number in groups of seven bits, least significant first; all bytes but
the last have the high bit set. -/
def varint (n : Nat) : Bytes :=
  if h : n < 128 then [UInt8.ofNat n]
  else UInt8.ofNat (n % 128 + 128) :: varint (n / 128)
termination_by n
decreasing_by omega

theorem varint_of_lt {n : Nat} (h : n < 128) : varint n = [UInt8.ofNat n] := by
  rw [varint, dif_pos h]

theorem varint_of_le {n : Nat} (h : 128 ≤ n) :
    varint n = UInt8.ofNat (n % 128 + 128) :: varint (n / 128) := by
  rw [varint, dif_neg (by omega)]

/-- The low `count` bytes of a number, least significant first. -/
def littleEndian : Nat → Nat → Bytes
  | 0, _ => []
  | count + 1, n => UInt8.ofNat (n % 256) :: littleEndian count (n / 256)

/-- The number that bytes denote, least significant first. -/
def ofLittleEndian : Bytes → Nat
  | [] => 0
  | b :: bs => b.toNat + 256 * ofLittleEndian bs

/-- An integer field of either width. -/
def integerField (number : Nat) (word : UInt64) : Bytes :=
  varint (number * 8) ++ varint word.toNat

/-- A field of eight fixed bytes. -/
def doubleField (number : Nat) (x : Double) : Bytes :=
  varint (number * 8 + 1) ++ littleEndian 8 x.bits.toNat

/-- A field of a length and as many bytes. -/
def bytesField (number : Nat) (bs : Bytes) : Bytes :=
  varint (number * 8 + 2) ++ varint bs.length ++ bs

/-- The bytes of a text. -/
def textBytes (s : String) : Bytes := s.toUTF8.toList

/-- The 64-bit word of a 32-bit integer. -/
def wordOfInt32 (n : Int32) : UInt64 := n.toInt64.toUInt64

/-- A field that may be absent. -/
def optional {α : Type} (field : α → Bytes) : Option α → Bytes
  | none => []
  | some a => field a

def int32Field (number : Nat) : Option Int32 → Bytes :=
  optional fun n => integerField number (wordOfInt32 n)

def int64Field (number : Nat) : Option Int64 → Bytes :=
  optional fun n => integerField number n.toUInt64

def boolField (number : Nat) : Option Bool → Bytes :=
  optional fun b => integerField number (if b then 1 else 0)

def textField (number : Nat) : Option String → Bytes :=
  optional fun s => bytesField number (textBytes s)

mutual

/-- The bytes of a datum. -/
def Datum.encode : Datum → Bytes
  | ⟨tag, flag, number, text, items, entries⟩ =>
    int32Field 1 tag ++ boolField 2 flag ++ optional (doubleField 3) number ++ textField 4 text
      ++ Datum.encodeItems items ++ Datum.encodeEntries entries

/-- The fields of the items of an array. -/
def Datum.encodeItems : List Datum → Bytes
  | [] => []
  | d :: ds => bytesField 5 d.encode ++ Datum.encodeItems ds

/-- The fields of the entries of an object, each a message of a key and a value. -/
def Datum.encodeEntries : List (Option String × Option Datum) → Bytes
  | [] => []
  | (key, value) :: es =>
    bytesField 6 (textField 1 key ++ Datum.encodeValue value) ++ Datum.encodeEntries es

/-- The value of an entry, when it is there. -/
def Datum.encodeValue : Option Datum → Bytes
  | none => []
  | some d => bytesField 2 d.encode

end

mutual

/-- The bytes of a term. -/
def Term.encode : Term → Bytes
  | ⟨tag, datum, args, options⟩ =>
    int32Field 1 tag ++ optional (fun d => bytesField 2 d.encode) datum
      ++ Term.encodeArgs args ++ Term.encodeOptions options

/-- The fields of the arguments of a term. -/
def Term.encodeArgs : List Term → Bytes
  | [] => []
  | t :: ts => bytesField 3 t.encode ++ Term.encodeArgs ts

/-- The fields of the options of a term, each a message of a key and a value. -/
def Term.encodeOptions : List (Option String × Option Term) → Bytes
  | [] => []
  | (key, value) :: os =>
    bytesField 4 (textField 1 key ++ Term.encodeValue value) ++ Term.encodeOptions os

/-- The value of an option, when it is there. -/
def Term.encodeValue : Option Term → Bytes
  | none => []
  | some t => bytesField 2 t.encode

end

/-- The bytes of a key and its value. -/
def encodeOption (option : Option String × Option Term) : Bytes :=
  textField 1 option.1 ++ optional (fun t => bytesField 2 t.encode) option.2

/-- The bytes of a query. -/
def Query.encode (q : Query) : Bytes :=
  int32Field 1 q.tag ++ optional (fun t => bytesField 2 t.encode) q.term ++ int64Field 3 q.token
    ++ boolField 4 q.noreply ++ q.options.flatMap fun o => bytesField 6 (encodeOption o)

/-- The bytes of a step of a backtrace. -/
def Frame.encode (f : Frame) : Bytes :=
  int32Field 1 f.tag ++ int64Field 2 f.position ++ textField 3 f.option

/-- The bytes of a response. -/
def Response.encode (r : Response) : Bytes :=
  int32Field 1 r.tag ++ int64Field 2 r.token
    ++ (r.values.flatMap fun d => bytesField 3 d.encode)
    ++ optional (fun fs => bytesField 4 (fs.flatMap fun f => bytesField 1 f.encode)) r.backtrace

end QueryDriver.Wire
