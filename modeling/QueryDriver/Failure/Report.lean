import QueryDriver.Failure
import QueryDriver.Wire.Text

/-! # Failures that the server reports

A response of one of three types reports a failure. Its first value says what happened,
as a text or as any other value, and its backtrace leads from the root of the query to
the part that failed. A response of a type that nobody expects is a failure as well, of
the protocol and not of the query.
-/

namespace QueryDriver

open Wire

/-- The class of the failures that a response of a type reports; none when responses of
the type report no failure. -/
def Wire.ResponseType.failure? : ResponseType → Option Category
  | .clientError => some .brokenClient
  | .compileError => some .badQuery
  | .runtimeError => some .runtime
  | .atom | .sequence | .partialSequence => none

namespace Wire.Response

/-- The class of the failure that a response reports. -/
def failure? (r : Response) : Option Category :=
  match ResponseType.ofCode? r.kind with
  | some type => type.failure?
  | none => none

/-- One step of a backtrace: a position, or else the name of an option. -/
def traceStep (f : Frame) : TraceStep :=
  if f.tag.getD 0 = FrameType.position.code then .position (f.position.getD 0).toInt
  else .option (f.option.getD "")

/-- The path that a response reports, empty when it has no backtrace. -/
def trace (r : Response) : List TraceStep :=
  match r.backtrace with
  | none => []
  | some frames => frames.map traceStep

/-- What the server says about a failure: its first value. -/
def detail (r : Response) : String :=
  match r.values with
  | [] => ""
  | d :: _ => if d.kind = DatumType.text.code then d.text.getD "" else d.detail

end Wire.Response

/-- The error of a response that is no result. -/
def DriverError.ofResponse (r : Response) (query : Option String) : DriverError :=
  match r.failure? with
  | some c =>
    { ofCause (.server c r.detail) with query := query, trace := r.trace, response := some r }
  | none =>
    { ofCause (.unexpectedResponse r.kind.toInt) with query := query, response := some r }

end QueryDriver
