import QueryDriver.Failure.Cause
import QueryDriver.Failure.Fault
import QueryDriver.Wire.Message

/-! # Failures

A failure is a driver error or a fault. A driver error is a cause with what is known
about where it arose: the rendered query, the path into the query that the server
reports, and the response itself.

`DriverError.withQuery` attaches the query once and for all: an error that already
has one keeps it.
-/

namespace QueryDriver

/-- One step of the path from the root of a query to the part that failed. -/
inductive TraceStep where
  | position (n : Int)
  | option (key : String)
deriving DecidableEq

def TraceStep.shown : TraceStep → String
  | position n => toString n
  | option key => Text.quoted key

/-- An error of the driver. -/
structure DriverError where
  cause : Cause
  code : String
  query : Option String
  trace : List TraceStep
  response : Option Wire.Response

namespace DriverError

/-- The error of a cause, with nothing known beside it. -/
def ofCause (cause : Cause) : DriverError := ⟨cause, cause.category.code, none, [], none⟩

/-- An error of a class that is made by hand. Some classes have words of their own for
an error that is made without any, and some take another code than their own. -/
def make (c : Category) (text code query : Option String) (trace : List TraceStep) :
    Except Fault DriverError :=
  match text.or c.defaultText? with
  | none => .error (.missing (c.word ++ ".__init__") false ["message"])
  | some text =>
    let e : DriverError := { ofCause (.stated c text) with query := query, trace := trace }
    match code with
    | none => .ok e
    | some code =>
      if c.takesCode then .ok { e with code := code }
      else .error (.repeatedArgument ((c.parent?.getD .general).word ++ ".__init__") "code")

def category (e : DriverError) : Category := e.cause.category

def message (e : DriverError) : String := e.cause.message

/-- Attaches the query unless there is one already. -/
def withQuery (query : Option String) (e : DriverError) : DriverError :=
  match e.query with
  | some _ => e
  | none => { e with query := query }

@[simp] theorem withQuery_cause (query : Option String) (e : DriverError) :
    (e.withQuery query).cause = e.cause := by
  unfold withQuery; split <;> rfl

/-- The message with the path and the query behind it, where there are any. -/
def text (e : DriverError) : String :=
  let path :=
    if e.trace.isEmpty then ""
    else " (backtrace: [" ++ Text.commaList (e.trace.map TraceStep.shown) ++ "])"
  let query :=
    match e.query with
    | none => ""
    | some q => if q.isEmpty then "" else " in:\n" ++ q
  e.message ++ path ++ query

end DriverError

/-- Why an operation did not succeed. -/
inductive Failure where
  | driver (e : DriverError)
  | fault (f : Fault)

namespace Failure

/-- The failure of a cause. -/
def ofCause (cause : Cause) : Failure := .driver (.ofCause cause)

def message : Failure → String
  | driver e => e.message
  | fault f => f.message

/-- The failure that an outcome is, if it is one. -/
def of? {α : Type} : Except Failure α → Option Failure
  | .ok _ => none
  | .error f => some f

end Failure

end QueryDriver
