import QueryDriver.Codec.Unmarshal
import QueryDriver.Failure.Report
import QueryDriver.Net.Connection

/-! # Cursors

A cursor stands for the result of one query. It holds the rows that have arrived and
not been read, and as long as the server has more of them, the connection over which it
asks for them.

`complete` says that the server has sent all it will, `closed` that the cursor is done
with its connection. A cursor that starts complete and without a connection is closed
from the start, and its rows can be read all the same.
-/

namespace QueryDriver

open Wire

/-- The three kinds of results. -/
inductive Shape where
  /-- One value. -/
  | atom
  /-- Rows, all of them at once. -/
  | sequence
  /-- Rows, of which there are more. -/
  | partialSequence
deriving DecidableEq

namespace Shape

def all : List Shape := [.atom, .sequence, .partialSequence]

def name : Shape → String
  | .atom => "ATOM"
  | .sequence => "SEQUENCE"
  | .partialSequence => "PARTIAL"

def word : Shape → String
  | .atom => "atom"
  | .sequence => "sequence"
  | .partialSequence => "partial"

/-- The kind of result that a response brings; none when it brings no result. -/
def ofResponse? (r : Response) : Option Shape :=
  match ResponseType.ofCode? r.kind with
  | some .atom => some .atom
  | some .sequence => some .sequence
  | some .partialSequence => some .partialSequence
  | _ => none

/-- A response that brings a result reports no failure. -/
theorem failure?_of_ofResponse? {r : Response} {s : Shape} (h : ofResponse? r = some s) :
    r.failure? = none := by
  unfold ofResponse? at h
  unfold Response.failure?
  cases hc : ResponseType.ofCode? r.kind with
  | none => rfl
  | some type => cases type <;> simp_all [ResponseType.failure?]

end Shape

structure Cursor where
  /-- The cursor belongs to a session. -/
  attached : Bool
  connection : Option Net.Connection
  token : Int64
  shape : Option Shape
  /-- The rows that have arrived and not been read. -/
  buffer : List Datum
  /-- The row that was read last. -/
  current : Option Datum
  complete : Bool
  closed : Bool
  error : Option DriverError
  expression : Value
  /-- The rendered expression, once it was asked for. -/
  query : Option String
  timeFormat : TimeFormat

namespace Cursor

/-- A cursor on rows that have arrived. -/
def start (attached : Bool) (connection : Option Net.Connection) (token : Int64)
    (shape : Option Shape) (rows : List Datum) (complete : Bool) (expression : Value)
    (timeFormat : TimeFormat) : Cursor :=
  ⟨attached, connection, token, shape, rows, none, complete, connection.isNone && complete, none,
    expression, none, timeFormat⟩

def failed (attached : Bool) (error : DriverError) : Cursor :=
  { start attached none 0 none [] true .null .native with error := some error }

def shapeWord (c : Cursor) : String :=
  match c.shape with
  | some s => s.word
  | none => "error"

def shown (c : Cursor) : String :=
  "<Cursor token=" ++ toString c.token.toInt ++ " shape=" ++ c.shapeWord
    ++ (if c.closed then " closed>" else " open>")

/-- A cursor is closed from the start exactly if it has no connection and nothing more will
arrive. -/
theorem closed_start (attached : Bool) (connection : Option Net.Connection) (token : Int64)
    (shape : Option Shape) (rows : List Datum) (complete : Bool) (expression : Value)
    (timeFormat : TimeFormat) :
    (start attached connection token shape rows complete expression timeFormat).closed = true ↔
      connection = none ∧ complete = true := by
  simp [start]

/-- Nothing is left to be read: the cursor has failed, or it is closed and its rows are
used up. -/
def isDone (c : Cursor) : Bool := c.error.isSome || (c.closed && c.buffer.isEmpty)

end Cursor

end QueryDriver
