import QueryDriver.Journal
import QueryDriver.Net.Frame
import QueryDriver.Net.Transport

/-! # Connections

A connection is a line to a server on which one query is in flight at a time. A round
trip runs under one deadline: before every send and every receive the line is armed with
the time that is left, and when none is left the round trip fails. Any error of the
driver during a round trip closes the line, because nothing is known any more about
where the next frame begins.

Responses with a smaller token than the query's are left over from earlier queries and
are passed over; one with a greater token is an error.
-/

namespace QueryDriver.Net

open Wire

/-- A line to a server. -/
structure Connection where
  line : Nat
  peer : Endpoint
deriving DecidableEq

/-- The network as the driver sees it: the transport's state, the lines that the driver
has closed, how long a frame may be, and the journal. -/
structure World (σ : Type) where
  net : σ
  closed : List Nat
  frameLimit : Nat
  journal : Journal

abbrev Action (σ : Type) := ExceptT Failure (StateM (World σ))

namespace Action

variable {σ α : Type}

/-- The outcome of an action, which is then no failure any more. -/
def observe (action : Action σ α) : Action σ (Except Failure α) := fun w =>
  let (outcome, w) := action.run w
  (.ok outcome, w)

/-- An outcome, with its failure if it is one. -/
def settle (outcome : Except Failure α) : Action σ α := liftM outcome

def record (entry : LogEntry) : Action σ Unit :=
  modify fun w => { w with journal := w.journal.record entry }

def onNet (operation : σ → Except SocketFault α × σ) : Action σ (Except SocketFault α) := fun w =>
  let (outcome, net) := operation w.net
  (.ok outcome, { w with net := net })

end Action

namespace Connection

variable {σ τ : Type}

def isClosed (c : Connection) : Action σ Bool := do
  return (← get).closed.contains c.line

/-- Closes the line, once. -/
def close (t : Transport σ τ) (c : Connection) : Action σ Unit := do
  if ← c.isClosed then return
  modify fun w => { w with closed := c.line :: w.closed }
  match ← Action.onNet (t.close c.line) with
  | .ok () => return
  | .error fault => throw (.ofCause (.closeFailed c.peer fault.text))

/-- Closes the line whatever happens. -/
def abort (t : Transport σ τ) (c : Connection) : Action σ Unit := do
  match ← Action.observe (c.close t) with
  | .ok () => return
  | .error _ => Action.record .abortFailed

/-- Leaves the line without a bound, unless it is closed. -/
def clearDeadline (t : Transport σ τ) (c : Connection) : Action σ Unit := do
  if ← c.isClosed then return
  match ← Action.onNet (t.arm c.line none) with
  | .ok () => return
  | .error _ => Action.record .timeoutNotCleared

/-- Runs a part of a round trip. An error of the driver closes the line, and in the end
the line has no bound. -/
def guarded {α : Type} (t : Transport σ τ) (c : Connection) (action : Action σ α) :
    Action σ α := do
  let outcome ← Action.observe action
  match outcome with
  | .error (.driver _) => c.abort t
  | _ => pure ()
  c.clearDeadline t
  Action.settle outcome

variable [Clock τ]

def deadlineFrom (t : Transport σ τ) (timeout : Option τ) : Action σ (Option τ) := do
  let w ← get
  return timeout.map fun span => Clock.after (t.now w.net) span

/-- Bounds how long the next operation on the line may take. -/
def arm (t : Transport σ τ) (c : Connection) (span : Option τ) : Action σ Unit := do
  match ← Action.onNet (t.arm c.line span) with
  | .ok () => return
  | .error fault => throw (.fault (.socket fault.text))

/-- Arms the line with the time that is left. -/
def applyDeadline (t : Transport σ τ) (c : Connection) (deadline : Option τ) :
    Action σ Unit := do
  match deadline with
  | none => c.arm t none
  | some d => do
    let w ← get
    let left := Clock.left d (t.now w.net)
    if Clock.spent left then throw (.ofCause (.deadlinePassed c.peer))
    c.arm t (some left)

/-- Writes at most as many times as `fuel` says; every time takes at least one byte. -/
def writeWithin (t : Transport σ τ) (c : Connection) (deadline : Option τ) :
    Nat → Bytes → Action σ Unit
  | _, [] => pure ()
  | 0, _ :: _ => pure ()
  | fuel + 1, b :: bs => do
    c.applyDeadline t deadline
    match ← Action.onNet (t.send c.line b bs) with
    | .error .timedOut => throw (.ofCause (.writeTimedOut c.peer))
    | .error (.failed text) => throw (.ofCause (.writeFailed c.peer text))
    | .ok accepted => writeWithin t c deadline fuel (bs.drop accepted.val)

def write (t : Transport σ τ) (c : Connection) (deadline : Option τ) (data : Bytes) :
    Action σ Unit :=
  c.writeWithin t deadline data.length data

/-- Reads as many bytes as `missing` says, the ones in `got` having been read. -/
def readWithin (t : Transport σ τ) (c : Connection) (deadline : Option τ) (frameStart : Bool) :
    Nat → Nat → Bytes → Action σ Bytes
  | _, 0, got => pure got
  | 0, _ + 1, got => pure got
  | fuel + 1, missing + 1, got => do
    c.applyDeadline t deadline
    match ← Action.onNet (t.receive c.line (missing + 1)) with
    | .error .timedOut => throw (.ofCause (.readTimedOut c.peer))
    | .error (.failed text) => throw (.ofCause (.readFailed c.peer text))
    | .ok ⟨[], _⟩ =>
      if frameStart && got.isEmpty then throw (.ofCause (.closedByPeer c.peer))
      else throw (.ofCause (.truncated c.peer))
    | .ok ⟨chunk, _⟩ =>
      readWithin t c deadline frameStart fuel (missing + 1 - chunk.length) (got ++ chunk)

def readExactly (t : Transport σ τ) (c : Connection) (deadline : Option τ) (size : Nat)
    (frameStart : Bool) : Action σ Bytes :=
  c.readWithin t deadline frameStart size size []

/-- Reads the response behind a header that announces `size` bytes. -/
def readPayload (t : Transport σ τ) (c : Connection) (deadline : Option τ) (size : Nat) :
    Action σ Response := do
  let payload ← c.readExactly t deadline size false
  match Response.decode payload with
  | some r => return r
  | none => throw (.ofCause .undecodable)

/-- Reads the next response, whatever query it answers. -/
def readResponse (t : Transport σ τ) (c : Connection) (deadline : Option τ) :
    Action σ Response := do
  let header ← c.readExactly t deadline headerSize true
  let size := ofLittleEndian header
  let limit := (← get).frameLimit
  if limit < size then throw (.ofCause (.frameTooLong size limit))
  c.readPayload t deadline size

/-- Reads on until the response that answers `token`, passing over at most `fuel` others. -/
def awaitWithin (t : Transport σ τ) (c : Connection) (deadline : Option τ) (token : Int64) :
    Nat → Action σ Response
  | 0 => throw (.ofCause (.closedByPeer c.peer))
  | fuel + 1 => do
    let r ← c.readResponse t deadline
    if r.tokenValue < token then
      Action.record (.stale r.tokenValue.toInt token.toInt)
      awaitWithin t c deadline token fuel
    else if token < r.tokenValue then
      throw (.driver { DriverError.ofCause (.futureToken r.tokenValue.toInt token.toInt) with
        response := some r })
    else return r

/-- Reads the response that answers `token`. Every response takes bytes, so there are no
more of them than bytes that can arrive. -/
def await (t : Transport σ τ) (c : Connection) (deadline : Option τ) (token : Int64) :
    Action σ Response := do
  let w ← get
  c.awaitWithin t deadline token (t.supply w.net + 1)

def exchange (t : Transport σ τ) (c : Connection) (query : Query) (deadline : Option τ) :
    Action σ Response := do
  let limit := (← get).frameLimit
  match encodeFrame limit query.encode with
  | .error cause => throw (.ofCause cause)
  | .ok frame =>
    c.write t deadline frame
    c.await t deadline query.tokenValue

/-- Sends a query and waits for its answer, all within `timeout`. -/
def execute (t : Transport σ τ) (c : Connection) (query : Query) (timeout : Option τ) :
    Action σ Response := do
  if ← c.isClosed then throw (.ofCause .connectionClosed)
  let deadline ← deadlineFrom t timeout
  Action.record (.sending c.line c.peer query)
  let r ← c.guarded t (c.exchange t query deadline)
  Action.record (.received c.line c.peer r)
  return r

/-- Dials a server and greets it, all within `timeout`. -/
def dial (t : Transport σ τ) (peer : Endpoint) (timeout : Option τ) : Action σ Connection := do
  let deadline ← deadlineFrom t timeout
  match ← Action.onNet (t.dial peer timeout) with
  | .error .timedOut => throw (.ofCause (.dialTimedOut peer))
  | .error (.failed text) => throw (.ofCause (.dialFailed peer text))
  | .ok line =>
    let c : Connection := ⟨line, peer⟩
    c.guarded t (c.write t deadline handshake)
    Action.record (.connected line peer)
    return c

end Connection

end QueryDriver.Net
