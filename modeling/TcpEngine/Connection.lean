import TcpEngine.State

/-!
# Connection records

What a host remembers about a connection: its state, the four-tuple that identifies it on the
network, and the numbers that its next segment carries.
-/

namespace TcpEngine

/-- The addresses and ports of the two sides of a connection. -/
structure FourTuple where
  localAddr : Address
  remoteAddr : Address
  localPort : UInt16
  remotePort : UInt16
deriving DecidableEq, Repr, Inhabited, Ord

namespace FourTuple

instance : ToString FourTuple where
  toString t := s!"{t.localAddr}:{t.localPort} <-> {t.remoteAddr}:{t.remotePort}"

/-- The four-tuple, seen from its receiver, of a segment from `src` to `dst`. -/
def ofSegment (src dst : Address) (srcPort dstPort : UInt16) : FourTuple :=
  { localAddr := dst, remoteAddr := src, localPort := dstPort, remotePort := srcPort }

end FourTuple

/-- A connection record. -/
structure Connection where
  state : State
  tuple : FourTuple
  /-- The sequence number of the next segment. -/
  sendNext : SeqNumber
  /-- The sequence number with which the connection started. -/
  initialSeq : SeqNumber
  /-- The next sequence number expected from the other side. -/
  recvNext : SeqNumber
  /-- The window that is advertised to the other side. -/
  window : UInt16
deriving DecidableEq, Repr, Inhabited

namespace Connection

/-- The window of a new connection. -/
def defaultWindow : UInt16 := 65535

/-- The record of a new connection, in CLOSED. -/
def new (tuple : FourTuple) (initialSeq : SeqNumber) : Connection :=
  { state := .closed, tuple, sendNext := initialSeq, initialSeq, recvNext := {}
    window := defaultWindow }

/-- The header of the next segment with the given flags and payload length. -/
def header (c : Connection) (flags : Flags) (payloadLen : UInt16) : Header :=
  { srcPort := c.tuple.localPort
    dstPort := c.tuple.remotePort
    seqNumber := c.sendNext
    ackNumber := c.recvNext
    flags
    window := c.window
    payloadLen }

/-- The record at the start of a transition, as the replies are sent from it. -/
def step (c : Connection) (t : Transition) : Connection :=
  { c with state := t.during, recvNext := t.acknowledge.getD c.recvNext }

end Connection

end TcpEngine
