import QueryDriver.Net.Frame
import QueryDriver.Net.Transport
import QueryDriver.Wire.Decoding

/-! # Scripted networks

A `Script` says in advance how a network behaves: what becomes of every dial, how many
bytes a send or a receive moves, how long things take, and what the peer answers to the
queries in the order in which they arrive. The peer reads the greeting and the frames of
a line as they come in.

Everything that happens is kept as a list of events. `transport` is the script as a
transport over a clock in seconds.
-/

namespace QueryDriver.Net

open Wire

/-- How a dial goes and how its line behaves afterwards. -/
structure DialPlan where
  delay : Double
  /-- What the dial fails with. -/
  refusal : Option SocketFault
  /-- How many bytes a send accepts. -/
  sendChunk : Option Nat
  /-- How many bytes a receive delivers. -/
  receiveChunk : Option Nat
  sendDelay : Double
  /-- After how many accepted bytes sends fail, and with what. -/
  sendFailure : Option (Nat × SocketFault)
  /-- Removing the bound of the line fails. -/
  resetFails : Bool
  closeFails : Bool

def DialPlan.plain : DialPlan := ⟨.zero, none, none, none, .zero, none, false, false⟩

/-- A part of an answer of the peer. -/
inductive ReplyItem where
  /-- A response with a token of its own, or with the token of the query and an offset. -/
  | response (r : Response) (offset : Int64)
  | raw (bs : Bytes)
  | delay (seconds : Double)
  | fault (f : SocketFault)
  | ending

/-- What waits on a line to be received. -/
inductive Arrival where
  | bytes (bs : Bytes)
  | delay (seconds : Double)
  | fault (f : SocketFault)
  | ending

def Arrival.size : Arrival → Nat
  | bytes bs => bs.length
  | _ => 0

/-- What happened on the network. -/
inductive NetEvent where
  | dialed (peer : Endpoint) (timeout : Option Double)
  | greeted (line : Nat) (greeting : Bytes)
  | asked (line : Nat) (query : Query)
  | closed (line : Nat)
  | armed (line : Nat) (timeout : Option Double)
  | sent (line : Nat) (count : Nat)
  | received (line : Nat) (asked got : Nat)

/-- The event is a detail of a round trip. -/
def NetEvent.isDetail : NetEvent → Bool
  | armed .. | sent .. | received .. => true
  | _ => false

/-- A line as the script sees it. -/
structure ScriptLine where
  plan : DialPlan
  timeout : Option Double
  /-- The first bytes have come in. -/
  greeted : Bool
  /-- How many bytes were accepted. -/
  accepted : Nat
  /-- The bytes that have come in and are not read yet. -/
  inbox : Bytes
  arrivals : List Arrival

/-- A network with a plan. -/
structure Script where
  clock : Double
  dials : List DialPlan
  replies : List (List ReplyItem)
  lines : List ScriptLine
  /-- What happened, newest first. -/
  events : List NetEvent

namespace Script

/-- The reading of the clock at the start. -/
def epoch : Double := Double.ofNat 1000

/-- A network on which nothing has happened yet. -/
def start (dials : List DialPlan) (replies : List (List ReplyItem)) : Script :=
  ⟨epoch, dials, replies, [], []⟩

def note (e : NetEvent) (s : Script) : Script := { s with events := e :: s.events }

/-- Lets time pass. -/
def pass (span : Double) (s : Script) : Script := { s with clock := Clock.after s.clock span }

/-- The line of a number. Lines are numbered from one. -/
def line (n : Nat) (s : Script) : ScriptLine :=
  (s.lines[n - 1]?).getD ⟨.plain, none, false, 0, [], []⟩

def setLine (n : Nat) (l : ScriptLine) (s : Script) : Script :=
  { s with lines := s.lines.set (n - 1) l }

/-- A response as the peer sends it, in answer to a query. -/
def replyBytes (r : Response) (offset token : Int64) : Bytes :=
  let r := match r.token with
    | some _ => r
    | none => { r with token := some (token + offset) }
  let payload := r.encode
  littleEndian 4 payload.length ++ payload

/-- What a part of an answer puts on the line. -/
def arrivalOf (token : Int64) : ReplyItem → Arrival
  | .response r offset => .bytes (replyBytes r offset token)
  | .raw bs => .bytes bs
  | .delay seconds => .delay seconds
  | .fault f => .fault f
  | .ending => .ending

def nextReply (s : Script) : List ReplyItem × Script :=
  match s.replies with
  | [] => ([.ending], s)
  | r :: rs => (r, { s with replies := rs })

def answer (n : Nat) (payload : Bytes) (s : Script) : Script :=
  match Query.decode payload with
  | none => s
  | some q =>
    let s := s.note (.asked n q)
    let (reply, s) := s.nextReply
    let l := s.line n
    s.setLine n { l with arrivals := l.arrivals ++ reply.map (arrivalOf q.tokenValue) }

/-- Reads the frames that have come in on a line completely, at most as many as `fuel`
says. -/
def readFrames (n : Nat) : Nat → Script → Script
  | 0, s => s
  | fuel + 1, s =>
    let l := s.line n
    let header := l.inbox.take headerSize
    let size := ofLittleEndian header
    let rest := l.inbox.drop headerSize
    if header.length < headerSize ∨ rest.length < size then s
    else
      let s := s.setLine n { l with inbox := rest.drop size }
      readFrames n fuel (s.answer n (rest.take size))

/-- Reads what has come in on a line: the greeting, then frames. -/
def readInbox (n : Nat) (s : Script) : Script :=
  let l := s.line n
  if l.greeted then s.readFrames n l.inbox.length
  else if l.inbox.length < headerSize then s
  else
    let s := s.setLine n { l with greeted := true, inbox := l.inbox.drop headerSize }
    (s.note (.greeted n (l.inbox.take headerSize))).readFrames n l.inbox.length

def dial (peer : Endpoint) (timeout : Option Double) (s : Script) :
    Except SocketFault Nat × Script :=
  let plan := s.dials.headD .plain
  let s := ({ s with dials := s.dials.drop 1 }.note (.dialed peer timeout)).pass plan.delay
  match plan.refusal with
  | some f => (.error f, s)
  | none =>
    (.ok (s.lines.length + 1),
      { s with lines := s.lines ++ [⟨plan, timeout, false, 0, [], []⟩] })

def arm (n : Nat) (timeout : Option Double) (s : Script) : Except SocketFault Unit × Script :=
  let l := s.line n
  let s := s.note (.armed n timeout)
  if timeout.isNone && l.plan.resetFails then
    (.error (.failed "[Errno 5] Input/output error"), s)
  else (.ok (), s.setLine n { l with timeout := timeout })

/-- How many of the bytes behind the first one a send accepts. -/
def acceptedOf (plan : DialPlan) (rest : Bytes) : Fin (rest.length + 1) :=
  match plan.sendChunk with
  | none => Fin.last rest.length
  | some chunk => ⟨min (chunk - 1) rest.length, Nat.lt_succ_of_le (Nat.min_le_right _ _)⟩

def send (n : Nat) (first : UInt8) (rest : Bytes) (s : Script) :
    Except SocketFault (Fin (rest.length + 1)) × Script :=
  let l := s.line n
  let s := s.pass l.plan.sendDelay
  match l.plan.sendFailure.filter fun f => f.1 ≤ l.accepted with
  | some f => (.error f.2, s)
  | none =>
    let more := acceptedOf l.plan rest
    let count := more.val + 1
    let s := s.note (.sent n count)
    let s := s.setLine n
      { l with
        accepted := l.accepted + count
        inbox := l.inbox ++ first :: rest.take more.val }
    (.ok more, s.readInbox n)

/-- One span of time is at least as long as another. -/
def reaches (a b : Double) : Bool := Clock.spent (Clock.left b a)

/-- A number of the bytes that wait on a line, with the bytes that stay. -/
def cut (chunk : Option Nat) (asked : Nat) (bs : Bytes) :
    { got : Bytes // got.length ≤ asked } × Bytes :=
  let count := min asked (chunk.getD asked)
  have fits : (bs.take count).length ≤ asked := by
    rw [List.length_take]
    exact Nat.le_trans (Nat.min_le_left _ _) (Nat.min_le_left _ _)
  (⟨bs.take count, fits⟩, bs.drop count)

/-- Takes what waits in front of a line, at most as many items as there are. -/
def receiveWithin (n asked : Nat) :
    List Arrival → Script → Except SocketFault { got : Bytes // got.length ≤ asked } × Script
  | [], s =>
    let l := s.line n
    let s := s.setLine n { l with arrivals := [] }
    match l.timeout with
    | some span => (.error .timedOut, s.pass span)
    | none => (.ok ⟨[], Nat.zero_le _⟩, s.note (.received n asked 0))
  | .ending :: later, s =>
    let l := s.line n
    let s := s.setLine n { l with arrivals := .ending :: later }
    (.ok ⟨[], Nat.zero_le _⟩, s.note (.received n asked 0))
  | .fault f :: later, s =>
    let l := s.line n
    (.error f, s.setLine n { l with arrivals := later })
  | .delay seconds :: later, s =>
    let l := s.line n
    match l.timeout.filter fun span => reaches seconds span with
    | some span =>
      let s := s.setLine n { l with arrivals := .delay (Clock.left seconds span) :: later }
      (.error .timedOut, s.pass span)
    | none => receiveWithin n asked later (s.pass seconds)
  | .bytes [] :: later, s => receiveWithin n asked later s
  | .bytes (b :: bs) :: later, s =>
    let l := s.line n
    let (got, rest) := cut l.plan.receiveChunk asked (b :: bs)
    let s := s.setLine n
      { l with arrivals := if rest.isEmpty then later else .bytes rest :: later }
    (.ok got, s.note (.received n asked got.val.length))

def receive (n asked : Nat) (s : Script) :
    Except SocketFault { got : Bytes // got.length ≤ asked } × Script :=
  receiveWithin n asked (s.line n).arrivals s

def close (n : Nat) (s : Script) : Except SocketFault Unit × Script :=
  let l := s.line n
  let s := s.note (.closed n)
  if l.plan.closeFails then (.error (.failed "[Errno 5] Input/output error"), s) else (.ok (), s)

/-- How many bytes a part of an answer can be, whatever the token of the query is. -/
def replySize : ReplyItem → Nat
  | .response r offset => (replyBytes r offset 0).length + 16
  | .raw bs => bs.length
  | _ => 0

def total (sizes : List Nat) : Nat := sizes.foldr (· + ·) 0

@[simp] theorem total_nil : total [] = 0 := rfl

@[simp] theorem total_cons (n : Nat) (sizes : List Nat) :
    total (n :: sizes) = n + total sizes := rfl

def waiting (l : ScriptLine) : Nat := total (l.arrivals.map Arrival.size)

def supply (s : Script) : Nat :=
  total (s.replies.map fun r => total (r.map replySize)) + total (s.lines.map waiting)

def transport : Transport Script Double where
  now s := s.clock
  dial := dial
  arm := arm
  send := send
  receive := receive
  close := close
  supply := supply

end Script

end QueryDriver.Net
