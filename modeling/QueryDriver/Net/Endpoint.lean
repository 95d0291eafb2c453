import QueryDriver.Number.Layout

/-! # Endpoints

A server is reached at a host and a port. The text of an endpoint is what messages
call the peer by.
-/

namespace QueryDriver

structure Endpoint where
  host : String
  port : Nat
deriving DecidableEq, Inhabited

/-- Host and port with a colon between. -/
def Endpoint.text (e : Endpoint) : String := e.host ++ ":" ++ Layout.digits e.port

end QueryDriver
