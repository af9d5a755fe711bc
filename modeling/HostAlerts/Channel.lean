import HostAlerts.Notice

/-!
# Channels

A channel delivers notices by sending requests to another program. What comes of a notice is told by a delivery:
the requests that were sent, and whether the other program took them or what went wrong.
-/

namespace HostAlerts

/-- A request to another program. -/
structure Request where
  /-- The method. -/
  method : String
  /-- The address. -/
  url : Value
  /-- The document that is sent. -/
  document : Value
  /-- The headers. -/
  headers : Entries
  /-- For how long to wait. -/
  timeout : Value

/-- The parts of a request. -/
def Request.fields (r : Request) : Entries := [
  (.text "method", .text r.method),
  (.text "url", r.url),
  (.text "json", r.document),
  (.text "headers", .map r.headers),
  (.text "timeout", r.timeout)]

/-- What comes back from another program. -/
inductive Reply where
  /-- A status. -/
  | status (code : Int)
  /-- Nothing: the connection broke, or it took too long. -/
  | nothing
  /-- The sender itself broke down. -/
  | breakdown
deriving DecidableEq, Repr

/-- What came of a notice. -/
structure Delivery where
  /-- The requests that were sent. -/
  requests : List Request := []
  /-- Whether the notice was taken, or what went wrong. -/
  outcome : Except Failure Bool

/-- A way to deliver notices, given the present and what comes back. -/
structure Channel where
  /-- The name. -/
  name : String
  /-- Delivers a notice. -/
  deliver : Instant → Reply → Notice → Delivery

namespace Channel

/-- Whether a reply means that a request was taken. -/
def taken : Reply → Except Failure Bool
  | .status code => .ok !(400 ≤ code && code < 600)
  | .nothing => .ok false
  | .breakdown => .error .sender

/-- The delivery of a notice in one request, which may be impossible to make. -/
def send (reply : Reply) : Except Failure Request → Delivery
  | .ok request => { requests := [request], outcome := taken reply }
  | .error failure => { outcome := .error failure }

end Channel

end HostAlerts
