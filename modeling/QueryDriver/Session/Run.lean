import QueryDriver.Cursor.Reading

/-! # Running queries

Running a value compiles it, sends it over a connection of the pool and makes a cursor
of the answer. What the compiler or the server finds wrong stays with the cursor; a
failure of the network is raised at once, and its connection is thrown away.

A connection goes back to the pool unless the cursor keeps it, which is when more rows
are to come.
-/

namespace QueryDriver.Client

open Wire

variable {σ τ α : Type}

/-- The token of a number as a message holds it. -/
def tokenOf (n : Nat) : Except Failure Int64 :=
  if n < 9223372036854775808 then .ok (Int64.ofNat n) else .error (.fault (.tokenOutOfRange n))

/-- Runs an action and throws the connection away if it fails. -/
def discardOnFailure (t : Net.Transport σ τ) (c : Net.Connection) (action : Action σ α) :
    Action σ α := do
  match ← Action.observe action with
  | .ok a => return a
  | .error f => do
    discard t c
    throw f

def received (t : Net.Transport σ τ) (c : Net.Connection) (v : Value) (token : Int64)
    (timeFormat : TimeFormat) (r : Response) : Action σ Cursor := do
  match Shape.ofResponse? r with
  | some .partialSequence =>
    return Cursor.start true (some c) token (some .partialSequence) r.values false v timeFormat
  | some shape => do
    release t c
    return Cursor.start true none token (some shape) r.values true v timeFormat
  | none => do
    if r.failure?.isSome then release t c else discard t c
    let query ← Action.compiling (describing v)
    return Cursor.failed true (DriverError.ofResponse r query)

variable [Net.Clock τ]

/-- Sends the query that starts a value under the next token, and makes a cursor of the
answer. -/
def send (t : Net.Transport σ τ) (v : Value) (query : Query) : Action σ Cursor := do
  let token ← Action.settle (tokenOf (← nextToken))
  let query := { query with token := some token }
  let timeFormat ← Action.settle (timeFormatOf query)
  let c ← acquire t
  let r ← discardOnFailure t c (roundTrip t c query)
  received t c v token (TimeFormat.ofValue timeFormat) r

/-- Compiles a value, sends it and makes a cursor of the answer. -/
def run (t : Net.Transport σ τ) (v : Value) : Action σ Cursor := do
  let s ← Action.session
  if s.closed then throw (.ofCause .sessionClosed)
  match ← Action.observe (Action.compiling (compile v s.scope 0)) with
  | .error (.driver e) => return Cursor.failed true e
  | .error f => throw f
  | .ok query => send t v query

end QueryDriver.Client
