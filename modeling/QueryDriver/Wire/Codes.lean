/-! # Codes of the wire protocol

The numbers by which both sides name what a message is. The words of an enumeration
are its `name`s; `all` lists them in the order of their declaration in the protocol.
-/

namespace QueryDriver.Wire

/-- What a query asks of the server. -/
inductive QueryType where
  | start | continue | stop
deriving DecidableEq

namespace QueryType

def all : List QueryType := [.start, .continue, .stop]

def code : QueryType → Int32
  | .start => 1
  | .continue => 2
  | .stop => 3

def name : QueryType → String
  | .start => "START"
  | .continue => "CONTINUE"
  | .stop => "STOP"

end QueryType

/-- How the server answers. -/
inductive ResponseType where
  | atom | sequence | partialSequence | clientError | compileError | runtimeError
deriving DecidableEq

namespace ResponseType

def all : List ResponseType :=
  [.atom, .sequence, .partialSequence, .clientError, .compileError, .runtimeError]

def code : ResponseType → Int32
  | .atom => 1
  | .sequence => 2
  | .partialSequence => 3
  | .clientError => 16
  | .compileError => 17
  | .runtimeError => 18

def name : ResponseType → String
  | .atom => "SUCCESS_ATOM"
  | .sequence => "SUCCESS_SEQUENCE"
  | .partialSequence => "SUCCESS_PARTIAL"
  | .clientError => "CLIENT_ERROR"
  | .compileError => "COMPILE_ERROR"
  | .runtimeError => "RUNTIME_ERROR"

def ofCode? (n : Int32) : Option ResponseType := all.find? fun t => t.code == n

end ResponseType

/-- What a datum holds. -/
inductive DatumType where
  | null | bool | number | text | array | object
deriving DecidableEq

namespace DatumType

def all : List DatumType := [.null, .bool, .number, .text, .array, .object]

def code : DatumType → Int32
  | .null => 1
  | .bool => 2
  | .number => 3
  | .text => 4
  | .array => 5
  | .object => 6

def name : DatumType → String
  | .null => "R_NULL"
  | .bool => "R_BOOL"
  | .number => "R_NUM"
  | .text => "R_STR"
  | .array => "R_ARRAY"
  | .object => "R_OBJECT"

def ofCode? (n : Int32) : Option DatumType := all.find? fun t => t.code == n

end DatumType

/-- How one step of a backtrace names the part of a term it goes to. -/
inductive FrameType where
  | position | option
deriving DecidableEq

namespace FrameType

def all : List FrameType := [.position, .option]

def code : FrameType → Int32
  | .position => 1
  | .option => 2

def name : FrameType → String
  | .position => "POS"
  | .option => "OPT"

end FrameType

/-- A code is read back as the type that it belongs to. -/
theorem ResponseType.ofCode?_code (t : ResponseType) : ofCode? t.code = some t := by
  cases t <;> decide

theorem DatumType.ofCode?_code (t : DatumType) : ofCode? t.code = some t := by
  cases t <;> decide

/-- The four bytes, read least significant first, by which a client names the protocol. -/
def versionMagic : UInt32 := 0x3f61ba36

/-- The port of a server whose address names none. -/
def defaultPort : Nat := 28015

end QueryDriver.Wire
