import QueryDriver.Codec.Marshal
import QueryDriver.Compilation
import QueryDriver.Net.Address
import QueryDriver.Net.Connection

/-! # Sessions

A session is what a user holds of one server: the address, the database of tables that
name none, the time that a round trip may take, the counter of tokens, and a pool of idle
connections. The pool is a stack that holds at most `maxIdle` connections.

A connection that is taken from the pool belongs to whoever took it until it is given
back with `release` or thrown away with `discard`. Giving back a connection that is
closed already does nothing, and one for which there is no room is closed.
-/

namespace QueryDriver

structure Session where
  /-- The address as it was given. -/
  address : String
  peer : Endpoint
  database : String
  /-- How many seconds a round trip may take. -/
  timeout : Option Double
  maxIdle : Nat
  /-- The token of the latest query. -/
  token : Nat
  /-- The idle connections, the one that was given back last in front. -/
  idle : List Net.Connection
  closed : Bool

namespace Session

def defaultAddress : String := "localhost:28015"

def defaultDatabase : String := "test"

def defaultMaxIdle : Nat := 5

/-- A number of seconds that a round trip may take. Only nothing at all sets no bound. -/
def timeoutOf (v : Value) : Except Failure (Option Double) :=
  let bound (x : Double) : Except Failure (Option Double) :=
    if x.nonpositive then .error (.fault .timeoutNotPositive) else .ok (some x)
  match v with
  | .null => .ok none
  | .duration d => bound d.toSeconds
  | .double x => bound x
  | .int n =>
    match Double.ofInt? n with
    | some x => bound x
    | none => .error (.fault .integerTooLarge)
  | _ => .error (.fault .timeoutNotNumber)

def databaseOf (v : Value) : Except Failure String :=
  match v with
  | .text s => if Text.allBlank s then .error (.fault (.notName "database")) else .ok s
  | _ => .error (.fault (.notName "database"))

def maxIdleOf (v : Value) : Except Failure Nat :=
  match v with
  | .int n => if n < 0 then .error (.fault (.notCount "max_idle")) else .ok n.toNat
  | _ => .error (.fault (.notCount "max_idle"))

/-- A session with the given settings, which are checked in the order in which the
answers depend on them. It has no connection yet. -/
def ofValues (address database timeout maxIdle : Value) : Except Failure Session := do
  let maxIdle ← maxIdleOf maxIdle
  let peer ← Net.addressOf address Wire.defaultPort
  let database ← databaseOf database
  let timeout ← timeoutOf timeout
  return ⟨address.text?.getD "", peer, database, timeout, maxIdle, 0, [], false⟩

def shown (s : Session) : String :=
  "<Session " ++ s.address ++ " db=" ++ Text.quoted s.database ++
    (if s.closed then " closed>" else " open>")

def scope (s : Session) : Scope := { Scope.initial with database := .text s.database }

/-- Takes the connection that was given back last. -/
def pop? (s : Session) : Option (Net.Connection × Session) :=
  match s.idle with
  | [] => none
  | c :: cs => some (c, { s with idle := cs })

/-- There is room for one more idle connection. -/
def hasRoom (s : Session) : Bool := !s.closed && decide (s.idle.length < s.maxIdle)

/-- Puts a connection on top of the pool. -/
def push (c : Net.Connection) (s : Session) : Session := { s with idle := c :: s.idle }

/-- The connection that is put on top is the one that is taken next. -/
@[simp] theorem pop?_push (c : Net.Connection) (s : Session) : (s.push c).pop? = some (c, s) :=
  rfl

/-- Putting a connection where there is room keeps the pool within its size. -/
theorem length_idle_push {c : Net.Connection} {s : Session} (h : s.hasRoom = true) :
    (s.push c).idle.length ≤ s.maxIdle := by
  simp only [hasRoom, Bool.and_eq_true, decide_eq_true_eq] at h
  obtain ⟨-, hlt⟩ := h
  exact Nat.succ_le_of_lt hlt

end Session

/-- A session with the network that it talks over. -/
structure Client (σ : Type) where
  world : Net.World σ
  session : Session

namespace Client

abbrev Action (σ : Type) := ExceptT Failure (StateM (Client σ))

variable {σ τ α : Type}

namespace Action

/-- The outcome of an action, which is then no failure any more. -/
def observe (action : Action σ α) : Action σ (Except Failure α) := fun c =>
  let (outcome, c) := action.run c
  (.ok outcome, c)

/-- An outcome, with its failure if it is one. -/
def settle (outcome : Except Failure α) : Action σ α := liftM outcome

def onWorld (action : Net.Action σ α) : Action σ α := fun c =>
  let (outcome, world) := action.run c.world
  (outcome, { c with world := world })

def compiling (action : Compiling α) : Action σ α := fun c =>
  let (outcome, journal) := action.run c.world.journal
  (outcome, { c with world := { c.world with journal := journal } })

def record (entry : LogEntry) : Action σ Unit := onWorld (Net.Action.record entry)

def session : Action σ Session := return (← get).session

def modifySession (f : Session → Session) : Action σ Unit :=
  modify fun c => { c with session := f c.session }

end Action

/-- Sets the database of tables that name none. -/
def use (database : Value) : Action σ Unit := do
  let name ← Action.settle (Session.databaseOf database)
  Action.modifySession fun s => { s with database := name }

/-- Sets how long a round trip may take. -/
def setTimeout (timeout : Value) : Action σ Unit := do
  let span ← Action.settle (Session.timeoutOf timeout)
  Action.modifySession fun s => { s with timeout := span }

def nextToken : Action σ Nat := do
  Action.modifySession fun s => { s with token := s.token + 1 }
  return (← Action.session).token

/-- Closes a connection whatever happens. -/
def discard (t : Net.Transport σ τ) (c : Net.Connection) : Action σ Unit := do
  match ← Action.observe (Action.onWorld (c.close t)) with
  | .ok () => return
  | .error _ => Action.record .discardFailed

/-- Gives a connection back to the pool, or closes it when there is no room. -/
def release (t : Net.Transport σ τ) (c : Net.Connection) : Action σ Unit := do
  if ← Action.onWorld c.isClosed then return
  let s ← Action.session
  if s.hasRoom then Action.modifySession (·.push c)
  else
    Action.record (.surplus s.address)
    discard t c

/-- Closes connections one after the other, whatever happens to the ones before. The
answer is the failure of the last one that failed. -/
def closeEach (t : Net.Transport σ τ) : List Net.Connection → Net.Action σ (Option Failure)
  | [] => return none
  | c :: cs => do
    let outcome ← Net.Action.observe (c.close t)
    let later ← closeEach t cs
    return later.or (Failure.of? outcome)

/-- Closes the session and every idle connection, the one that was given back first at
first. Closing a closed session does nothing. -/
def close (t : Net.Transport σ τ) : Action σ Unit := do
  let s ← Action.session
  if s.closed then return
  Action.modifySession fun s => { s with closed := true, idle := [] }
  match ← Action.onWorld (closeEach t s.idle.reverse) with
  | none => return
  | some f => throw f

variable [Net.Clock τ]

def dial (t : Net.Transport σ τ) : Action σ Net.Connection := do
  let s ← Action.session
  Action.onWorld (Net.Connection.dial t s.peer (s.timeout.map Net.Clock.ofSeconds))

/-- Reaches the server once, so that an unreachable one is known at the start. -/
def connect (t : Net.Transport σ τ) : Action σ Unit := do
  let c ← dial t
  release t c

/-- Drops all idle connections and reaches the server once more. -/
def reconnect (t : Net.Transport σ τ) : Action σ Unit := do
  match ← Action.observe (close t) with
  | .ok () => pure ()
  | .error _ => Action.record .closeErrorIgnored
  Action.modifySession fun s => { s with closed := false }
  connect t

/-- An idle connection, or a new one when there is none. -/
def acquire (t : Net.Transport σ τ) : Action σ Net.Connection := do
  let s ← Action.session
  if s.closed then throw (.ofCause .sessionClosed)
  match s.pop? with
  | some (c, s) => do
    Action.modifySession fun _ => s
    return c
  | none => do
    Action.record (.poolEmpty s.address)
    dial t

/-- Sends a query over a connection and waits for the answer as long as the session
allows. -/
def roundTrip (t : Net.Transport σ τ) (c : Net.Connection) (query : Wire.Query) :
    Action σ Wire.Response := do
  let s ← Action.session
  Action.onWorld (c.execute t query (s.timeout.map Net.Clock.ofSeconds))

end Client

end QueryDriver
