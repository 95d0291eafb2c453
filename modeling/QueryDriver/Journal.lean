import QueryDriver.Net.Endpoint
import QueryDriver.Rendering
import QueryDriver.Wire.Text

/-! # The journal

What outlives a single compilation: the numbers of variables, which are never handed out
twice, the count of calls of callables, and the log. A log entry keeps what it is about,
so the log is also the history of what was sent and received on which line; its text is
made when somebody reads it.
-/

namespace QueryDriver

/-- How important a log entry is. -/
inductive LogLevel where
  | debug | warning
deriving DecidableEq

def LogLevel.word : LogLevel → String
  | .debug => "DEBUG"
  | .warning => "WARNING"

/-- What is logged. -/
inductive LogEntry where
  | connected (line : Nat) (peer : Endpoint)
  | sending (line : Nat) (peer : Endpoint) (query : Wire.Query)
  | received (line : Nat) (peer : Endpoint) (response : Wire.Response)
  | stale (got waited : Int)
  | abortFailed
  | timeoutNotCleared
  | poolEmpty (address : String)
  | surplus (address : String)
  | discardFailed
  | closeErrorIgnored
  | stopFailed (token : Int)
  | compileFault
  | notRendered

namespace LogEntry

def level : LogEntry → LogLevel
  | stopFailed _ => .warning
  | _ => .debug

/-- The part of the driver that an entry comes from. -/
def channel : LogEntry → String
  | connected .. | sending .. | received .. | stale .. | abortFailed | timeoutNotCleared =>
    "reql.net"
  | poolEmpty _ | surplus _ | discardFailed | closeErrorIgnored => "reql.session"
  | stopFailed _ => "reql.cursor"
  | compileFault => "reql.compiler"
  | notRendered => "reql.debug"

def message : LogEntry → String
  | connected _ peer => "connected to " ++ peer.text
  | sending _ peer query => "sending query to " ++ peer.text ++ ":\n" ++ query.logText
  | received _ peer response =>
    "received response from " ++ peer.text ++ ":\n" ++ response.logText
  | stale got waited =>
    "skipping stale response token=" ++ toString got ++ " (waiting for " ++ toString waited ++ ")"
  | abortFailed => "error while aborting connection"
  | timeoutNotCleared => "could not reset socket timeout"
  | poolEmpty address => "pool empty, dialing " ++ address
  | surplus address => "closing surplus connection to " ++ address
  | discardFailed => "error closing discarded connection"
  | closeErrorIgnored => "ignoring close error during reconnect"
  | stopFailed token => "failed to stop cursor token=" ++ toString token
  | compileFault => "unexpected error while compiling"
  | notRendered => "could not render expression"

end LogEntry

/-- The state that all compilations share. -/
structure Journal where
  /-- The number of the next variable. -/
  next : Nat
  /-- How many calls of callables were made. -/
  calls : Nat
  /-- The log, newest entry first. -/
  log : List LogEntry

namespace Journal

/-- Numbers start at one. -/
def fresh : Journal := ⟨1, 0, []⟩

def record (entry : LogEntry) (j : Journal) : Journal := { j with log := entry :: j.log }

/-- The text of an expression for error messages; none, and a log entry, when it cannot
be rendered. -/
def describe (v : Value) (j : Journal) : Option String × Journal :=
  let (text, calls) := v.describe
  let j := { j with calls := j.calls + calls }
  match text with
  | some _ => (text, j)
  | none => (none, j.record .notRendered)

end Journal

end QueryDriver
