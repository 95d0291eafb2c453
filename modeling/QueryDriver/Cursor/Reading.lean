import QueryDriver.Cursor
import QueryDriver.Session

/-! # Reading cursors

Reading moves a cursor along its rows. When the rows that have arrived are used up and
there are more, the next ones are asked for over the connection of the cursor. The
connection is given back when the last rows have arrived, and thrown away when
something unexpected happens; closing a cursor in between tells the server to stop.

An error that arises while rows are fetched stays with the cursor: reading ends, and
the operations that read to the end raise it. They close the cursor whatever happens
(`closingAfter`), and a failure to close it takes the place of their outcome.

Every loop here is bounded by the rows that have arrived and the bytes that can still
arrive, since every row takes bytes.
-/

namespace QueryDriver

open Wire

/-- A cursor with the client whose connections it uses. -/
structure Reader (σ : Type) where
  client : Client σ
  cursor : Cursor

abbrev Reading (σ : Type) := ExceptT Failure (StateM (Reader σ))

namespace Reading

variable {σ τ α : Type}

/-- The outcome of an action, which is then no failure any more. -/
def observe (action : Reading σ α) : Reading σ (Except Failure α) := fun r =>
  let (outcome, r) := action.run r
  (.ok outcome, r)

/-- An outcome, with its failure if it is one. -/
def settle (outcome : Except Failure α) : Reading σ α := liftM outcome

def onClient (action : Client.Action σ α) : Reading σ α := fun r =>
  let (outcome, client) := action.run r.client
  (outcome, { r with client := client })

def cursor : Reading σ Cursor := return (← get).cursor

def update (f : Cursor → Cursor) : Reading σ Unit :=
  modify fun r => { r with cursor := f r.cursor }

def record (entry : LogEntry) : Reading σ Unit := onClient (Client.Action.record entry)

/-- The rendered expression. It is rendered when it is first asked for, and again each
time as long as that fails. -/
def renderedQuery : Reading σ (Option String) := do
  let c ← cursor
  match c.query with
  | some q => return some q
  | none =>
    if c.expression.isNull then return none
    let text ← onClient (Client.Action.compiling (describing c.expression))
    update fun c => { c with query := text }
    return text

/-- Fails with a cause and the rendered expression. -/
def failHere (cause : Cause) : Reading σ α := do
  let query ← renderedQuery
  throw (.driver { DriverError.ofCause cause with query := query })

def raiseError : Reading σ Unit := do
  match (← cursor).error with
  | some e => throw (.driver e)
  | none => return

/-- The row that was read last, as a value. -/
def scan : Reading σ Value := do
  let c ← cursor
  match c.current with
  | some d => settle (d.unmarshal c.timeFormat 0)
  | none => throw (.ofCause .noCurrentRow)

/-- Only a cursor of a session can use connections. -/
def requireSession : Reading σ Unit := do
  if (← cursor).attached then return else throw (.ofCause .noSession)

variable [Net.Clock τ]

/-- Sends the server a query about the rows of the cursor. -/
def followUp (t : Net.Transport σ τ) (c : Net.Connection) (type : QueryType) :
    Reading σ Response := do
  requireSession
  let token := (← cursor).token
  onClient (Client.roundTrip t c (Query.followUp type token))

def handBack (t : Net.Transport σ τ) (conn : Net.Connection) : Reading σ Unit := do
  requireSession
  onClient (Client.release t conn)

/-- Tells the server to stop, over a connection that is given back then. The rows are
complete whatever the server says to that. -/
def stop (t : Net.Transport σ τ) (conn : Net.Connection) : Reading σ Unit := do
  update fun c => { c with complete := true }
  match ← observe (followUp t conn .stop) with
  | .ok _ => handBack t conn
  | .error (.driver _) => record (.stopFailed (← cursor).token.toInt)
  | .error f => throw f

/-- Closes the cursor. The rows that have not been read are dropped, and a connection
that it holds is given back, after the server was told to stop if it has more rows. -/
def close (t : Net.Transport σ τ) : Reading σ Unit := do
  update fun c => { c with buffer := [] }
  let c ← cursor
  if c.closed then return
  update fun c => { c with closed := true, connection := none }
  match c.connection with
  | none => return
  | some conn => if c.complete then handBack t conn else stop t conn

/-- The cursor holds no connection any more, and nothing more will arrive. -/
def finish : Reading σ Unit := update fun c => { c with connection := none, complete := true }

def feed (rows : List Datum) : Reading σ Unit :=
  update fun c => { c with buffer := c.buffer ++ rows }

/-- Takes the rows of an answer, which has come over a connection. The connection is kept
for as long as there are more rows. -/
def accept (t : Net.Transport σ τ) (conn : Net.Connection) (r : Response) : Reading σ Unit := do
  match Shape.ofResponse? r with
  | some .partialSequence => feed r.values
  | some .sequence => do
    finish
    feed r.values
    onClient (Client.release t conn)
  | _ => do
    finish
    if r.failure?.isSome then
      onClient (Client.release t conn)
      let query ← renderedQuery
      throw (.driver (DriverError.ofResponse r query))
    else
      onClient (Client.discard t conn)
      throw (.driver { DriverError.ofCause (.unexpectedContinuation r.kind.toInt) with
        response := some r })

def fetchOver (t : Net.Transport σ τ) (conn : Net.Connection) : Reading σ Unit := do
  requireSession
  match ← observe (followUp t conn .continue) with
  | .ok r => accept t conn r
  | .error (.driver e) => do
    finish
    throw (.driver e)
  | .error f => throw f

def fetchMore (t : Net.Transport σ τ) : Reading σ Unit := do
  match (← cursor).connection with
  | none => throw (.ofCause .connectionLost)
  | some conn => fetchOver t conn

/-- One step toward the next row. The answer is whether there is one, or nothing when
more has been fetched and has to be looked at. -/
def step (t : Net.Transport σ τ) : Reading σ (Option Bool) := do
  let c ← cursor
  match c.buffer with
  | d :: ds => do
    update fun c => { c with buffer := ds, current := some d }
    return some true
  | [] =>
    if c.complete then
      close t
      return some false
    else
      match ← observe (fetchMore t) with
      | .ok () => return none
      | .error (.driver e) => do
        let query ← renderedQuery
        update fun c => { c with error := some (e.withQuery query) }
        close t
        return some false
      | .error f => throw f

/-- Goes on to the next row in at most as many steps as `fuel` says. -/
def nextWithin (t : Net.Transport σ τ) : Nat → Reading σ Bool
  | 0 => return false
  | fuel + 1 => do
    match ← step t with
    | some found => return found
    | none => nextWithin t fuel

def supply (t : Net.Transport σ τ) : Reading σ Nat := return t.supply (← get).client.world.net

/-- Goes on to the next row, if there is one. -/
def next (t : Net.Transport σ τ) : Reading σ Bool := do
  update fun c => { c with current := none }
  if (← cursor).isDone then return false
  nextWithin t ((← supply t) + 2)

/-- How often a loop over the rows can go round. -/
def rowBound (t : Net.Transport σ τ) : Reading σ Nat :=
  return (← cursor).buffer.length + (← supply t) + 1

def closingAfter (t : Net.Transport σ τ) (action : Reading σ α) : Reading σ α := do
  let outcome ← observe action
  close t
  settle outcome

/-- The values of the next rows, at most as many as `fuel` says. -/
def rowsWithin (t : Net.Transport σ τ) : Nat → Reading σ (List Value)
  | 0 => return []
  | fuel + 1 => do
    if ← next t then
      let v ← scan
      let vs ← rowsWithin t fuel
      return v :: vs
    else return []

/-- Passes over the next rows, at most as many as `fuel` says. -/
def skipWithin (t : Net.Transport σ τ) : Nat → Reading σ Unit
  | 0 => return
  | fuel + 1 => do
    if ← next t then skipWithin t fuel

/-- The one value of an atom, which must not be null. -/
def one (t : Net.Transport σ τ) : Reading σ Value := do
  let v ← closingAfter t do
    raiseError
    let c ← cursor
    if c.shape ≠ some .atom then failHere (.notAnAtom c.shapeWord)
    if ← next t then scan
    else
      raiseError
      failHere .noRows
  if v.isNull then failHere .noRows
  return v

/-- The items of the one value of an atom, which has to be an array or null. -/
def items (v : Value) : Reading σ (List Value) := do
  match v with
  | .null => return []
  | .list vs => return vs
  | v => failHere (.notAnArray v.typeName)

/-- The values of all rows that have not been read, or the items of an atom. -/
def remaining (t : Net.Transport σ τ) : Reading σ (List Value) := do
  raiseError
  match (← cursor).shape with
  | some .atom => do
    let v ← if ← next t then scan else pure .null
    items v
  | none => failHere .notAStream
  | some _ => do
    let rows ← rowsWithin t (← rowBound t)
    raiseError
    return rows

/-- Reads all that is left and closes the cursor. -/
def all (t : Net.Transport σ τ) : Reading σ (List Value) := closingAfter t (remaining t)

def exhaust (t : Net.Transport σ τ) : Reading σ Unit :=
  closingAfter t do
    skipWithin t (← rowBound t)
    raiseError

/-- The values of the next rows, at most as many as `fuel` says, and whether there are no
more; a row that cannot be read keeps the ones in front of it. -/
def takeWithin (t : Net.Transport σ τ) : Nat → Reading σ (List Value × Except Failure Bool)
  | 0 => return ([], .ok false)
  | fuel + 1 => do
    match ← observe (next t) with
    | .error f => return ([], .error f)
    | .ok false => return ([], .ok true)
    | .ok true =>
      match ← observe scan with
      | .error f => return ([], .error f)
      | .ok v => do
        let (vs, ended) ← takeWithin t fuel
        return (v :: vs, ended)

/-- Ends an iteration. The cursor is closed, and an iteration that has reached the end raises
the error of the cursor. The answer is the rows and the failure that the iteration ended
with. -/
def endIteration (t : Net.Transport σ τ) (rows : List Value) (ended : Except Failure Bool) :
    Reading σ (List Value × Option Failure) := do
  let outcome ← observe (closingAfter t (settle ended))
  let outcome ← observe do
    if ← settle outcome then raiseError
  return (rows, Failure.of? outcome)

/-- Iterates over the rows, over as many as `limit` says if it says so, and gives up the
iteration then. An iteration that has not begun leaves the cursor as it is. -/
def iterate (t : Net.Transport σ τ) (limit : Option Nat) :
    Reading σ (List Value × Option Failure) := do
  if limit = some 0 then return ([], none)
  let (rows, ended) ← takeWithin t (limit.getD (← rowBound t))
  endIteration t rows ended

def visit (t : Net.Transport σ τ) (count : Nat) : Reading σ (List Bool) :=
  closingAfter t ((List.replicate count ()).mapM fun _ => next t)

end Reading

end QueryDriver
