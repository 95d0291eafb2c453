import QueryDriver.Net.Endpoint
import QueryDriver.Number.Double
import QueryDriver.Wire.Encoding

/-! # Transports

A `Transport` is all that the driver asks of a network: to dial a server, to send and to
receive on a line, to bound how long the next operation may take, to close a line, and
to read a clock. It is a record of functions over a state of any type, so the driver can
run over a scripted peer as well as over one that is only described by its laws.

A send accepts at least one byte, and a receive delivers no more bytes than were asked
for; both are part of the types. Receiving nothing means that the peer has ended the
stream. `supply` bounds the bytes that can still arrive, which bounds every loop that
waits for the peer.
-/

namespace QueryDriver.Net

/-- What can go wrong on a socket. -/
inductive SocketFault where
  | timedOut
  | failed (text : String)
deriving DecidableEq

/-- How a socket fault is called where it has no other name. -/
def SocketFault.text : SocketFault → String
  | .timedOut => "timed out"
  | .failed t => t

/-- Points and spans of time, as far as deadlines need them. -/
class Clock (τ : Type) where
  /-- The span of a number of seconds. -/
  ofSeconds : Double → τ
  /-- The point that lies a span after another. -/
  after : τ → τ → τ
  /-- The span from the second point to the first. -/
  left : τ → τ → τ
  /-- The span is over. -/
  spent : τ → Bool

instance : Clock Int := ⟨Double.truncate, (· + ·), (· - ·), (· ≤ 0)⟩

instance : Clock Double where
  ofSeconds x := x
  after a b := .ofFloat (a.toFloat + b.toFloat)
  left a b := .ofFloat (a.toFloat - b.toFloat)
  spent a := a.nonpositive

structure Transport (σ τ : Type) where
  /-- The reading of the clock. -/
  now : σ → τ
  /-- Opens a line to a server and numbers it. -/
  dial : Endpoint → Option τ → σ → Except SocketFault Nat × σ
  /-- Bounds how long the next operation on a line may take. -/
  arm : Nat → Option τ → σ → Except SocketFault Unit × σ
  /-- Sends a first byte and as many of the others as the answer says. -/
  send : Nat → UInt8 → (rest : Wire.Bytes) → σ → Except SocketFault (Fin (rest.length + 1)) × σ
  /-- Receives at most as many bytes as are asked for. -/
  receive : Nat → (asked : Nat) → σ →
    Except SocketFault { bs : Wire.Bytes // bs.length ≤ asked } × σ
  /-- Closes a line. -/
  close : Nat → σ → Except SocketFault Unit × σ
  /-- How many bytes can still arrive, on all lines together. -/
  supply : σ → Nat

end QueryDriver.Net
