import QueryDriver.Net.Endpoint
import QueryDriver.Text.Quoted
import QueryDriver.Time.Duration

/-! # Causes of driver errors

The errors of the driver form classes, and every cause belongs to one of them.
`Cause.category` gives the class, `Cause.message` the wording; nothing else in the
library spells an error message of these classes.
-/

namespace QueryDriver

/-- The classes of driver errors. -/
inductive Category where
  /-- The class that all others specialise. -/
  | general
  | badClient | internal | unmarshalable | badQuery | runtime | brokenClient | noSuchRow
  | wrongResponseType | network | timeout | closed
deriving DecidableEq

namespace Category

def all : List Category :=
  [.general, .badClient, .internal, .unmarshalable, .badQuery, .runtime, .brokenClient,
    .noSuchRow, .wrongResponseType, .network, .timeout, .closed]

/-- The code that errors of the class carry. -/
def code : Category → String
  | .general => "UNKNOWN"
  | .badClient => "BAD_CLIENT"
  | .internal => "INTERNAL"
  | .unmarshalable => "UNMARSHALABLE"
  | .badQuery => "BAD_QUERY"
  | .runtime => "RUNTIME"
  | .brokenClient => "BROKEN_CLIENT"
  | .noSuchRow => "NO_SUCH_ROW"
  | .wrongResponseType => "WRONG_RESPONSE_TYPE"
  | .network => "NETWORK"
  | .timeout => "TIMEOUT"
  | .closed => "CLOSED"

/-- The name of the class. -/
def word : Category → String
  | .general => "ReqlError"
  | .badClient => "BadClientError"
  | .internal => "InternalError"
  | .unmarshalable => "UnmarshalableError"
  | .badQuery => "BadQueryError"
  | .runtime => "RuntimeQueryError"
  | .brokenClient => "BrokenClientError"
  | .noSuchRow => "NoSuchRowError"
  | .wrongResponseType => "WrongResponseTypeError"
  | .network => "ReqlNetworkError"
  | .timeout => "ReqlTimeoutError"
  | .closed => "ClosedError"

def ofWord? (w : String) : Option Category := all.find? fun c => c.word == w

/-- A class is found by its name. -/
theorem ofWord?_word (c : Category) : ofWord? c.word = some c := by
  cases c <;> decide

/-- Every class has a code of its own. -/
theorem code_injective {a b : Category} (h : a.code = b.code) : a = b := by
  revert h
  cases a <;> cases b <;> decide

/-- The class that a class specialises. -/
def parent? : Category → Option Category
  | .general => none
  | .internal | .unmarshalable => some .badClient
  | .timeout => some .network
  | _ => some .general

/-- A class and all that it specialises, nearest first. -/
def lineage : Category → List Category
  | .general => [.general]
  | .internal => [.internal, .badClient, .general]
  | .unmarshalable => [.unmarshalable, .badClient, .general]
  | .timeout => [.timeout, .network, .general]
  | c => [c, .general]

theorem lineage_eq (c : Category) :
    c.lineage = c :: (match c.parent? with | none => [] | some p => p.lineage) := by
  cases c <;> rfl

/-- Errors of the class can be made with a code of their own. -/
def takesCode : Category → Bool
  | .general | .badClient | .network => true
  | _ => false

/-- The wording of an error that is made without one. -/
def defaultText? : Category → Option String
  | .noSuchRow => some "no rows returned"
  | .timeout => some "query deadline exceeded"
  | _ => none

end Category

/-- The causes of driver errors. -/
inductive Cause where
  /-- An error of a class, with its own words. -/
  | stated (category : Category) (text : String)
  -- building and compiling
  | literalTooDeep (limit : Nat)
  | uninspectable (shown reason : String)
  | wrongArity (expected : String) (actual : Nat)
  | noResult
  | literalKeyNotText (typeName : String)
  | needsTableSpec
  | needsTable (operator given : String)
  /-- A fault that left the compiler: its class and how it is shown. -/
  | escaped (word shown : String)
  -- values on the wire
  | valueTooDeep (limit : Nat)
  | notFinite
  | unsupported (typeName : String)
  | keyNotText (typeName : String)
  | noZone
  | zoneNotWholeMinutes (offset : Duration)
  | badZone (text : String)
  | epochMissing
  | epochOutOfRange (shown : String)
  | unknownDatum (type : Int)
  | notAValue (type : Int)
  | notAMessage (typeName : String)
  -- connections
  | payloadTooLong (size limit : Nat)
  | frameTooLong (size limit : Nat)
  | undecodable
  | truncated (peer : Endpoint)
  | closedByPeer (peer : Endpoint)
  | futureToken (got waited : Int)
  | dialTimedOut (peer : Endpoint)
  | dialFailed (peer : Endpoint) (text : String)
  | deadlinePassed (peer : Endpoint)
  | writeTimedOut (peer : Endpoint)
  | writeFailed (peer : Endpoint) (text : String)
  | readTimedOut (peer : Endpoint)
  | readFailed (peer : Endpoint) (text : String)
  | closeFailed (peer : Endpoint) (text : String)
  | connectionClosed
  -- sessions and cursors
  | sessionClosed
  | noSession
  | connectionLost
  | noCurrentRow
  | noRows
  | notAnAtom (shape : String)
  | notAnArray (typeName : String)
  | notAStream
  | unexpectedResponse (type : Int)
  | unexpectedContinuation (type : Int)
  /-- The server reports a failure of the given class. -/
  | server (category : Category) (detail : String)
deriving DecidableEq

namespace Cause

def category : Cause → Category
  | stated c _ => c
  | server c _ => c
  | literalTooDeep _ | uninspectable .. | wrongArity .. | noResult | literalKeyNotText _ | needsTableSpec
  | needsTable .. | noCurrentRow => .badClient
  | escaped .. => .internal
  | valueTooDeep _ | notFinite | unsupported _ | keyNotText _ | noZone | zoneNotWholeMinutes _
  | badZone _ | epochMissing | epochOutOfRange _ | unknownDatum _ | notAValue _ | notAMessage _ =>
    .unmarshalable
  | payloadTooLong .. | frameTooLong .. | undecodable | truncated _ | futureToken .. | noSession
  | connectionLost | unexpectedResponse _ | unexpectedContinuation _ => .brokenClient
  | closedByPeer _ | dialFailed .. | writeFailed .. | readFailed .. | closeFailed ..
  | connectionClosed => .network
  | dialTimedOut _ | deadlinePassed _ | writeTimedOut _ | readTimedOut _ => .timeout
  | sessionClosed => .closed
  | noRows => .noSuchRow
  | notAnAtom _ | notAnArray _ | notAStream => .wrongResponseType

/-- How the report of a server failure begins. -/
def serverText : Category → String
  | .brokenClient => "server rejected the message as malformed"
  | .badQuery => "server could not make sense of the query"
  | _ => "server could not execute the query"

def message : Cause → String
  | stated _ t => t
  | literalTooDeep limit =>
    "literal nesting exceeds maximum depth of " ++ Layout.digits limit
  | uninspectable shown reason => "cannot inspect function " ++ shown ++ ": " ++ reason
  | wrongArity expected actual =>
    "function expression has incorrect number of arguments: expected " ++ expected ++ ", got "
      ++ Layout.digits actual
  | noResult => "function expression must return a value"
  | literalKeyNotText typeName => "object keys must be strings, got " ++ typeName
  | needsTableSpec => "table_create() requires a TableSpec"
  | needsTable operator given => operator ++ "() requires a table, got " ++ given
  | escaped _ shown => "unexpected error while building query: " ++ shown
  | valueTooDeep limit => "value nesting exceeds maximum depth of " ++ Layout.digits limit
  | notFinite => "number must be finite"
  | unsupported typeName => "cannot marshal value of type " ++ typeName
  | keyNotText typeName => "object keys must be strings, got " ++ typeName
  | noZone => "datetime value must include timezone info"
  | zoneNotWholeMinutes offset =>
    "timezone offset " ++ offset.text ++ " is not a whole number of minutes"
  | badZone text => "invalid timezone offset: " ++ Text.quoted text
  | epochMissing => "TIME object is missing a numeric epoch_time"
  | epochOutOfRange shown => "TIME epoch_time " ++ shown ++ " is out of range"
  | unknownDatum type => "unknown datum type " ++ toString type
  | notAValue type => "term of type " ++ toString type ++ " is not a value"
  | notAMessage typeName => "cannot unmarshal value of type " ++ typeName
  | payloadTooLong size limit =>
    "frame payload of " ++ Layout.digits size ++ " bytes exceeds " ++ Layout.digits limit
  | frameTooLong size limit =>
    "response frame of " ++ Layout.digits size ++ " bytes exceeds " ++ Layout.digits limit
  | undecodable => "could not decode response"
  | truncated peer => "truncated frame from " ++ peer.text
  | closedByPeer peer => "connection closed by " ++ peer.text
  | futureToken got waited =>
    "received response for token " ++ toString got ++ " while waiting for " ++ toString waited
  | dialTimedOut peer => "timed out connecting to " ++ peer.text
  | dialFailed peer text => "could not connect to " ++ peer.text ++ ": " ++ text
  | deadlinePassed peer => "query deadline exceeded talking to " ++ peer.text
  | writeTimedOut peer => "query deadline exceeded writing to " ++ peer.text
  | writeFailed peer text => "error writing to " ++ peer.text ++ ": " ++ text
  | readTimedOut peer => "query deadline exceeded reading from " ++ peer.text
  | readFailed peer text => "error reading from " ++ peer.text ++ ": " ++ text
  | closeFailed peer text => "error closing connection to " ++ peer.text ++ ": " ++ text
  | connectionClosed => "connection is closed"
  | sessionClosed => "session is closed"
  | noSession => "cursor has no session"
  | connectionLost => "cursor lost its connection before the stream completed"
  | noCurrentRow => "scan() called without a current row; call next() first"
  | noRows => "no rows returned"
  | notAnAtom shape => "one() requires an atom response, got " ++ shape
  | notAnArray typeName => "all() on an atom response requires an array, got " ++ typeName
  | notAStream => "all() requires a stream response"
  | unexpectedResponse type => "unexpected response type " ++ toString type
  | unexpectedContinuation type => "unexpected response type " ++ toString type ++ " to CONTINUE"
  | server c detail => serverText c ++ (if detail.isEmpty then "" else ": " ++ detail)

end Cause

end QueryDriver
