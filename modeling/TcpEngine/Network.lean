import TcpEngine.Segment.Header

/-!
# The network below

A connection needs two things from the network layer: the address at which it is reachable, and a
way to hand over a finished segment. The layer either accepts a segment or refuses it with a
reason. The layers of a program are the values of a type `ν`; handing over a segment changes the
value.
-/

namespace TcpEngine

/-- Why a network layer refuses a segment. -/
inductive Refusal where
  /-- There is no way to the destination. -/
  | unreachable
  /-- The layer has no buffer for the segment. -/
  | exhausted
  /-- The device failed. -/
  | device
deriving DecidableEq, Repr

namespace Refusal

def message : Refusal → String
  | unreachable => "destination unreachable"
  | exhausted => "no transmit buffer available"
  | device => "device error"

instance : ToString Refusal := ⟨message⟩

end Refusal

/-- The network layers of type `ν`. `deliver` hands over a payload for a destination. -/
class Network (ν : Type) where
  address : ν → Address
  deliver : ν → Address → Protocol → Octets → Except Refusal Unit × ν

/-- A payload on its way from one address to another. -/
structure Datagram where
  src : Address
  dst : Address
  protocol : Protocol
  payload : Octets
deriving DecidableEq, Repr

namespace Datagram

/-- The header of the segment in a datagram, verified between the datagram's addresses. -/
def header (d : Datagram) : Checked (Except Rejection Header) :=
  Header.parse d.payload (some (d.src, d.dst))

/-- The octets behind the segment header, none if the datagram is shorter than that. -/
def segmentPayload (d : Datagram) : Octets := d.payload.drop Segment.headerLen

end Datagram

end TcpEngine
