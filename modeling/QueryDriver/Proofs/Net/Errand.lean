import QueryDriver.Net.Connection

/-!
# What a round trip asks of the network

An `Errand` is what remains to be done of a round trip: it is over, with a result or with an error
of the driver, or an operation is due, a send or a receive, and the errand goes on with what that
gives. Running an errand carries out what is due, each time with the line armed first.

An exchange is the errand `Errand.exchange`, run. So what holds of all errands that are run holds of
every round trip, whether it is writing, reading a header or a message, or passing over stale
responses.
-/

namespace QueryDriver.Net

open Wire

variable {σ τ α β : Type}

/-- What is asked of a line that is armed. -/
inductive Operation where
  | send (b : UInt8) (rest : Bytes)
  | receive (asked : Nat)
deriving DecidableEq

namespace Operation

/-- What an operation gives if it does not fail. -/
@[reducible] def Result : Operation → Type
  | send _ rest => Fin (rest.length + 1)
  | receive asked => { bs : Bytes // bs.length ≤ asked }

def run (t : Transport σ τ) (n : Nat) :
    (op : Operation) → σ → Except SocketFault op.Result × σ
  | send b rest => t.send n b rest
  | receive asked => t.receive n asked

end Operation

/-- What remains to be done. -/
inductive Errand (α : Type) : Type where
  | done (x : α)
  | fail (e : DriverError)
  /-- An operation is due. -/
  | due (op : Operation) (next : Except SocketFault op.Result → Errand α)
  /-- Something is noted in the journal. -/
  | note (entry : LogEntry) (next : Errand α)
  /-- How many bytes can still arrive and how long a frame may be is looked up. -/
  | look (next : Nat → Nat → Errand α)

namespace Errand

/-- An operation is due. -/
def IsDue : Errand α → Prop
  | due .. => True
  | _ => False

/-- An errand that goes on with the result of another one. -/
def bind (p : Errand α) (f : α → Errand β) : Errand β :=
  match p with
  | done x => f x
  | fail e => fail e
  | due op next => due op fun r => (next r).bind f
  | note entry next => note entry (next.bind f)
  | look next => look fun supply limit => (next supply limit).bind f

/-- Carries out what is due, with the line armed each time. -/
def perform [Clock τ] (t : Transport σ τ) (c : Connection) (deadline : Option τ) :
    Errand α → Action σ α
  | done x => pure x
  | fail e => throw (.driver e)
  | due op next => do
    c.applyDeadline t deadline
    let r ← Action.onNet (op.run t c.line)
    perform t c deadline (next r)
  | note entry next => do
    Action.record entry
    perform t c deadline next
  | look next => do
    let w ← get
    perform t c deadline (next (t.supply w.net) w.frameLimit)

/-! ### The errands of a round trip -/

variable (peer : Endpoint)

/-- Writes data, with at most `fuel` sends. -/
def write : Nat → Bytes → Errand Unit
  | _, [] => done ()
  | 0, _ :: _ => done ()
  | fuel + 1, b :: bs => due (.send b bs) fun
    | .error .timedOut => fail (.ofCause (.writeTimedOut peer))
    | .error (.failed text) => fail (.ofCause (.writeFailed peer text))
    | .ok accepted => write fuel (bs.drop accepted.val)

/-- Reads the bytes that are missing, with at most `fuel` receives. -/
def read (frameStart : Bool) : Nat → Nat → Bytes → Errand Bytes
  | _, 0, got => done got
  | 0, _ + 1, got => done got
  | fuel + 1, missing + 1, got => due (.receive (missing + 1)) fun
    | .error .timedOut => fail (.ofCause (.readTimedOut peer))
    | .error (.failed text) => fail (.ofCause (.readFailed peer text))
    | .ok ⟨[], _⟩ =>
      if frameStart && got.isEmpty then fail (.ofCause (.closedByPeer peer))
      else fail (.ofCause (.truncated peer))
    | .ok ⟨chunk, _⟩ => read frameStart fuel (missing + 1 - chunk.length) (got ++ chunk)

/-- Reads the response behind a header. -/
def payload (size : Nat) : Errand Response :=
  (read peer false size size []).bind fun bytes =>
    match Response.decode bytes with
    | some r => done r
    | none => fail (.ofCause .undecodable)

/-- Reads the next response. -/
def response : Errand Response :=
  (read peer true headerSize headerSize []).bind fun header => look fun _ limit =>
    if limit < ofLittleEndian header then
      fail (.ofCause (.frameTooLong (ofLittleEndian header) limit))
    else payload peer (ofLittleEndian header)

/-- Reads on to the response that answers `token`. -/
def answerWithin (token : Int64) : Nat → Errand Response
  | 0 => fail (.ofCause (.closedByPeer peer))
  | fuel + 1 => (response peer).bind fun r =>
    if r.tokenValue < token then
      note (.stale r.tokenValue.toInt token.toInt) (answerWithin token fuel)
    else if token < r.tokenValue then
      fail { DriverError.ofCause (.futureToken r.tokenValue.toInt token.toInt) with
        response := some r }
    else done r

/-- Sends a query and reads on to its answer. -/
def exchange (query : Query) : Errand Response :=
  look fun _ limit =>
    match encodeFrame limit query.encode with
    | .error cause => fail (.ofCause cause)
    | .ok frame => (write peer frame.length frame).bind fun _ => look fun supply _ =>
      answerWithin peer query.tokenValue (supply + 1)

/-! ### The driver runs them -/

variable [Clock τ] (t : Transport σ τ) (c : Connection) (deadline : Option τ)

theorem perform_bind (p : Errand α) (f : α → Errand β) :
    (p.bind f).perform t c deadline =
      p.perform t c deadline >>= fun x => (f x).perform t c deadline := by
  induction p with
  | done x => simp only [bind, perform, pure_bind]
  | fail e => rfl
  | due op next ih => simp only [bind, perform, ih, bind_assoc]
  | note entry next ih => simp only [bind, perform, ih, bind_assoc]
  | look next ih => simp only [bind, perform, ih, bind_assoc]

theorem perform_write (fuel : Nat) (data : Bytes) :
    (write c.peer fuel data).perform t c deadline = c.writeWithin t deadline fuel data := by
  induction fuel generalizing data with
  | zero => cases data <;> rfl
  | succ fuel ih =>
      cases data with
      | nil => rfl
      | cons b bs =>
          rw [write, perform, Connection.writeWithin]
          congr 1
          funext _
          congr 1
          funext r
          rcases r with (_ | text) | accepted
          · rfl
          · rfl
          · exact ih _

theorem perform_read (frameStart : Bool) (fuel missing : Nat) (got : Bytes) :
    (read c.peer frameStart fuel missing got).perform t c deadline =
      c.readWithin t deadline frameStart fuel missing got := by
  induction fuel generalizing missing got with
  | zero => cases missing <;> rfl
  | succ fuel ih =>
      cases missing with
      | zero => rfl
      | succ missing =>
          rw [read, perform, Connection.readWithin]
          congr 1
          funext _
          congr 1
          funext r
          rcases r with (_ | text) | ⟨_ | ⟨b, bs⟩, hlength⟩
          · rfl
          · rfl
          · dsimp only
            split <;> rfl
          · exact ih _ _

theorem perform_payload (size : Nat) :
    (payload c.peer size).perform t c deadline = c.readPayload t deadline size := by
  rw [payload, perform_bind, perform_read, Connection.readPayload, Connection.readExactly]
  congr 1
  funext bytes
  cases Response.decode bytes <;> rfl

theorem perform_response : (response c.peer).perform t c deadline = c.readResponse t deadline := by
  rw [response, perform_bind, perform_read, Connection.readResponse, Connection.readExactly]
  congr 1
  funext header
  rw [perform]
  congr 1
  funext w
  dsimp only
  split
  · rfl
  · exact perform_payload t c deadline _

theorem perform_answerWithin (token : Int64) (fuel : Nat) :
    (answerWithin c.peer token fuel).perform t c deadline =
      c.awaitWithin t deadline token fuel := by
  induction fuel with
  | zero => rfl
  | succ fuel ih =>
      rw [answerWithin, perform_bind, perform_response, Connection.awaitWithin]
      congr 1
      funext r
      split
      · rw [perform, ih]
      · split <;> rfl

/-- An exchange is an errand that is run. -/
theorem perform_exchange (query : Query) :
    (exchange c.peer query).perform t c deadline = c.exchange t query deadline := by
  rw [exchange, perform, Connection.exchange]
  congr 1
  funext w
  dsimp only
  cases encodeFrame w.frameLimit query.encode with
  | error cause => rfl
  | ok frame =>
      dsimp only
      rw [perform_bind, perform_write, Connection.write]
      congr 1
      funext _
      rw [perform, Connection.await]
      congr 1
      funext w
      exact perform_answerWithin t c deadline _ _

end Errand

end QueryDriver.Net
