import QueryDriver.Number.Double
import QueryDriver.Wire.Codes

/-! # Messages

The four messages of the protocol. Every field may be absent, and a field that was
set is told from one that was not: absence is `none`, an absent list is empty. A
reader that asks for the value of an absent field gets its zero, through the
functions named after the fields.
-/

namespace QueryDriver.Wire

/-- A value on the wire. The tag says which of the fields counts. -/
structure Datum where
  tag : Option Int32
  flag : Option Bool
  number : Option Double
  text : Option String
  items : List Datum
  entries : List (Option String × Option Datum)

namespace Datum

def empty : Datum := ⟨none, none, none, none, [], []⟩

instance : Inhabited Datum := ⟨empty⟩

/-- The tag, zero when absent. -/
def kind (d : Datum) : Int32 := d.tag.getD 0

def null : Datum := { empty with tag := some DatumType.null.code }

def ofBool (b : Bool) : Datum := { empty with tag := some DatumType.bool.code, flag := some b }

def ofDouble (x : Double) : Datum :=
  { empty with tag := some DatumType.number.code, number := some x }

def ofText (s : String) : Datum :=
  { empty with tag := some DatumType.text.code, text := some s }

def ofList (items : List Datum) : Datum :=
  { empty with tag := some DatumType.array.code, items := items }

def ofEntries (entries : List (String × Datum)) : Datum :=
  { empty with
    tag := some DatumType.object.code
    entries := entries.map fun e => (some e.1, some e.2) }

/-- The datum says that there is no value. -/
def isNull (d : Datum) : Bool := d.kind == DatumType.null.code

end Datum

/-- A node of a query: an operation with its arguments and options, or a value. -/
structure Term where
  tag : Option Int32
  datum : Option Datum
  args : List Term
  options : List (Option String × Option Term)

namespace Term

def empty : Term := ⟨none, none, [], []⟩

instance : Inhabited Term := ⟨empty⟩

/-- The tag, zero when absent. -/
def kind (t : Term) : Int32 := t.tag.getD 0

end Term

/-- What a client sends. -/
structure Query where
  tag : Option Int32
  term : Option Term
  token : Option Int64
  noreply : Option Bool
  options : List (Option String × Option Term)

namespace Query

def empty : Query := ⟨none, none, none, none, []⟩

instance : Inhabited Query := ⟨empty⟩

/-- The number that the answer has to carry, zero when absent. -/
def tokenValue (q : Query) : Int64 := q.token.getD 0

/-- A query about a stream that is already open. -/
def followUp (type : QueryType) (token : Int64) : Query :=
  { empty with tag := some type.code, token := some token }

end Query

/-- One step of a backtrace as it is sent. -/
structure Frame where
  tag : Option Int32
  position : Option Int64
  option : Option String
deriving DecidableEq

namespace Frame

def empty : Frame := ⟨none, none, none⟩

end Frame

/-- What a server sends. -/
structure Response where
  tag : Option Int32
  token : Option Int64
  values : List Datum
  backtrace : Option (List Frame)

namespace Response

def empty : Response := ⟨none, none, [], none⟩

instance : Inhabited Response := ⟨empty⟩

/-- The tag, zero when absent. -/
def kind (r : Response) : Int32 := r.tag.getD 0

/-- The number of the query that is answered, zero when absent. -/
def tokenValue (r : Response) : Int64 := r.token.getD 0

end Response

/-- The fields of every message with their numbers. -/
def schema : List (String × List (String × Nat)) :=
  [("Datum", [("type", 1), ("r_bool", 2), ("r_num", 3), ("r_str", 4), ("r_array", 5),
      ("r_object", 6)]),
    ("Term", [("type", 1), ("datum", 2), ("args", 3), ("optargs", 4)]),
    ("Query", [("type", 1), ("query", 2), ("token", 3), ("OBSOLETE_noreply", 4),
      ("global_optargs", 6)]),
    ("Frame", [("type", 1), ("pos", 2), ("opt", 3)]),
    ("Backtrace", [("frames", 1)]),
    ("Response", [("type", 1), ("token", 2), ("response", 3), ("backtrace", 4)])]

end QueryDriver.Wire
