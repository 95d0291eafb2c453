import QueryDriver.Text.Blank
import QueryDriver.Time.Duration

/-! # The debug console

What the driver logs is shown on the console when debugging is on: every entry, with its
time, its level and where it comes from. When debugging is off, nothing is shown.
-/

namespace QueryDriver

/-- A level of the log, the more important the higher. -/
inductive Severity where
  | debug | info | warning | error | critical
deriving DecidableEq

namespace Severity

def all : List Severity := [.debug, .info, .warning, .error, .critical]

def word : Severity → String
  | .debug => "DEBUG"
  | .info => "INFO"
  | .warning => "WARNING"
  | .error => "ERROR"
  | .critical => "CRITICAL"

def rank : Severity → Nat
  | .debug => 10
  | .info => 20
  | .warning => 30
  | .error => 40
  | .critical => 50

def ofWord? (w : String) : Option Severity := all.find? fun s => s.word == w

end Severity

/-- Whether debugging is on. -/
structure Console where
  debugging : Bool
deriving DecidableEq

namespace Console

/-- The words that switch debugging on from the environment. -/
def yesWords : List String := ["1", "true", "yes", "on"]

/-- The text of a switch says yes. Blanks around it and capitals do not matter. -/
def saysYes (text : String) : Bool :=
  yesWords.contains (String.ofList ((Text.trim text).toList.map Char.toLower))

/-- The console at the start, for the text of the switch in the environment. -/
def ofEnvironment (text : String) : Console := ⟨saysYes text⟩

def turn (debugging : Bool) (_ : Console) : Console := ⟨debugging⟩

/-- The level from which on entries are shown; zero leaves it to the environment. -/
def level (c : Console) : Nat := if c.debugging then Severity.debug.rank else 0

/-- How many places entries are shown at. -/
def outlets (c : Console) : Nat := if c.debugging then 1 else 0

/-- What an entry adds to the console, `time` being its date and time of day. -/
def show? (c : Console) (time : String) (severity : Severity) (channel message : String) :
    Option String :=
  if c.debugging then
    some (time ++ " " ++ severity.word ++ " [" ++ channel ++ "] " ++ message ++ "\n")
  else none

end Console

end QueryDriver
