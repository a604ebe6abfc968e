import TcpEngine.Connection
import TcpEngine.Error

/-!
# The journal of a host

A host tells what it does in a journal. A note says what happened; its level and its text are
functions of the note.
-/

namespace TcpEngine

/-- How important a note is. -/
inductive Level where
  | debug
  | trace
deriving DecidableEq, Repr

/-- Something that a host has done or noticed. -/
inductive Note where
  /-- A host was set up. -/
  | opened (address : Address) (capacity : UInt64)
  /-- A host was given up, and its `count` connections closed. -/
  | cleared (address : Address) (count : Nat)
  /-- A connection was to be created that is there already. -/
  | present (tuple : FourTuple)
  /-- There was no room for a new connection. -/
  | noSlot (tuple : FourTuple)
  /-- A connection was created. -/
  | created (tuple : FourTuple) (initialSeq : SeqNumber)
  /-- A connection was closed in a given state. -/
  | closed (tuple : FourTuple) (state : State)
  /-- A received segment was not accepted. -/
  | dropped (src dst : Address) (reason : Rejection)
  /-- A received segment belongs to no connection. -/
  | unmatched (src dst : Address) (header : Header)
  /-- A received segment belongs to a connection. -/
  | received (src dst : Address) (header : Header)
  /-- A state ignores an event. -/
  | ignored (tuple : FourTuple) (event : Event) (state : State)
  /-- An event took a connection from one state to another. -/
  | moved (tuple : FourTuple) (old : State) (event : Event) (new : State)
  /-- A connection finished in another state after its replies. -/
  | finished (tuple : FourTuple) (old new : State)
  /-- A payload of `len` octets is too long for a segment. -/
  | oversized (len : Nat)
  /-- There was no buffer for a segment. -/
  | noBuffer (header : Header)
  /-- The checksum of a segment could not be computed. -/
  | noChecksum (header : Header) (reason : Error)
  /-- A segment was sent. -/
  | sent (src dst : Address) (header : Header)
  /-- The network layer refused a segment. -/
  | refused (src dst : Address) (header : Header) (reason : Refusal)
deriving DecidableEq, Repr

namespace Note

/-- The traffic of segments and ignored events are traced, all else is for debugging. -/
def level : Note → Level
  | unmatched .. | received .. | ignored .. | sent .. => .trace
  | _ => .debug

def message : Note → String
  | opened address capacity => s!"tcp: endpoint at {address} for {capacity} connections"
  | cleared address count => s!"tcp: endpoint at {address} torn down, {count} connections closed"
  | present tuple => s!"tcp: {tuple} exists already"
  | noSlot tuple => s!"tcp: no slot for {tuple}"
  | created tuple initialSeq => s!"tcp: created {tuple} isn={initialSeq}"
  | closed tuple state => s!"tcp: closed {tuple} in {state}"
  | dropped src dst reason => s!"tcp: {src} -> {dst}: dropped segment: {reason}"
  | unmatched src dst header => s!"tcp: {src} -> {dst}: no connection for {header}"
  | received src dst header => s!"tcp: {src} -> {dst}: {header}"
  | ignored tuple event state => s!"tcp: {tuple} ignores {event} in {state}"
  | moved tuple old event new => s!"tcp: {tuple} {old} on {event} -> {new}"
  | finished tuple old new => s!"tcp: {tuple} {old} -> {new}"
  | oversized len => s!"tcp: payload of {len} bytes does not fit a segment"
  | noBuffer header => s!"tcp: no transmit buffer for {header}"
  | noChecksum header reason => s!"tcp: no checksum for {header}: {reason}"
  | sent src dst header => s!"tcp: {src} -> {dst}: {header}"
  | refused src dst header reason =>
    s!"tcp: {src} -> {dst}: {header} not delivered: {reason}"

end Note

end TcpEngine
