import QueryDriver.Session.Run

/-! # Operations

All that a user can do with a session and the cursors that it has handed out, as a type,
so that a statement about every history is a statement about lists of operations. Cursors
are numbered from zero in the order in which they were handed out; an operation on a
cursor that was never handed out does nothing and has no answer.
-/

namespace QueryDriver

inductive CursorOperation where
  | look
  | next
  | scan
  | one
  | all
  | exhaust
  | close
  | iterate (limit : Option Nat)
  /-- Goes on a number of times, and closes the cursor. -/
  | visit (count : Nat)

inductive SessionOperation where
  /-- Compiles a value without sending it. -/
  | compile (v : Value)
  | close
  | reconnect
  | use (database : Value)
  | setTimeout (timeout : Value)
  | nextToken
  | look
  /-- The scope of the queries of the session. -/
  | scope
  /-- Takes connections and gives them back in the same order. -/
  | borrow (count : Nat)
  /-- A round trip of a query as it is. -/
  | execute (query : Wire.Query)
  /-- A round trip over a connection that has been closed twice and given back. -/
  | executeClosed (query : Wire.Query)

inductive Operation where
  /-- Runs a value, which hands out a cursor. -/
  | run (v : Value)
  | cursor (index : Nat) (operation : CursorOperation)
  | session (operation : SessionOperation)

inductive Answer where
  | nothing
  | flag (b : Bool)
  | flags (bs : List Bool)
  | token (n : Nat)
  | value (v : Value)
  | values (vs : List Value)
  /-- The rows of an iteration, and the failure that it ended with. -/
  | rows (vs : List Value) (failure : Option Failure)
  /-- The number of a new cursor. -/
  | handedOut (index : Nat)
  | query (q : Wire.Query)
  | response (r : Wire.Response)
  | scope (s : Scope)

/-- A client with the cursors that it has handed out. -/
structure System (σ : Type) where
  client : Client σ
  cursors : List Cursor

section

variable {σ τ : Type} [Net.Clock τ]

def CursorOperation.perform (t : Net.Transport σ τ) : CursorOperation → Reading σ Answer
  | look => return .nothing
  | next => return .flag (← Reading.next t)
  | scan => return .value (← Reading.scan)
  | one => return .value (← Reading.one t)
  | all => return .values (← Reading.all t)
  | exhaust => do
    Reading.exhaust t
    return .nothing
  | close => do
    Reading.close t
    return .nothing
  | iterate limit => do
    let (rows, failure) ← Reading.iterate t limit
    return .rows rows failure
  | visit count => return .flags (← Reading.visit t count)

/-- Gives connections back in the order in which they are listed. -/
def Client.releaseEach (t : Net.Transport σ τ) : List Net.Connection → Client.Action σ Unit
  | [] => return
  | c :: cs => do
    Client.release t c
    releaseEach t cs

def SessionOperation.perform (t : Net.Transport σ τ) : SessionOperation → Client.Action σ Answer
  | look => return .nothing
  | compile v => do
    let s ← Client.Action.session
    return .query (← Client.Action.compiling (QueryDriver.compile v s.scope 0))
  | close => do
    Client.close t
    return .nothing
  | reconnect => do
    Client.reconnect t
    return .nothing
  | use database => do
    Client.use database
    return .nothing
  | setTimeout timeout => do
    Client.setTimeout timeout
    return .nothing
  | nextToken => return .token (← Client.nextToken)
  | scope => return .scope (← Client.Action.session).scope
  | borrow count => do
    let connections ← (List.replicate count ()).mapM fun _ => Client.acquire t
    Client.releaseEach t connections
    return .nothing
  | execute query => do
    let c ← Client.acquire t
    let r ← Client.roundTrip t c query
    Client.release t c
    return .response r
  | executeClosed query => do
    let c ← Client.acquire t
    Client.Action.onWorld (c.close t)
    Client.Action.onWorld (c.close t)
    Client.release t c
    return .response (← Client.roundTrip t c query)

/-- Carries out an operation; none when there is no cursor of that number. -/
def System.perform (t : Net.Transport σ τ) (s : System σ) :
    Operation → Option (Except Failure Answer) × System σ
  | .run v =>
    match (Client.run t v).run s.client with
    | (.ok c, client) =>
      (some (.ok (.handedOut s.cursors.length)), ⟨client, s.cursors ++ [c]⟩)
    | (.error f, client) => (some (.error f), { s with client := client })
  | .cursor index operation =>
    match s.cursors[index]? with
    | none => (none, s)
    | some c =>
      let (outcome, r) := (operation.perform t).run ⟨s.client, c⟩
      (some outcome, ⟨r.client, s.cursors.set index r.cursor⟩)
  | .session operation =>
    let (outcome, client) := (operation.perform t).run s.client
    (some outcome, { s with client := client })

/-- Carries out operations one after the other, with the outcomes that they have. -/
def System.play (t : Net.Transport σ τ) (s : System σ) :
    List Operation → List (Option (Except Failure Answer)) × System σ
  | [] => ([], s)
  | op :: ops =>
    let (outcome, s) := s.perform t op
    let (outcomes, s) := s.play t ops
    (outcome :: outcomes, s)

end

end QueryDriver
