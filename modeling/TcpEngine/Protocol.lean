/-!
# Protocol numbers

The number that says which protocol the payload of a datagram belongs to. Three of them have names;
the named ones come first in the order, and the others follow by their number.
-/

namespace TcpEngine

/-- The protocol of a datagram's payload. -/
inductive Protocol where
  | icmp
  | tcp
  | udp
  /-- A protocol without a name here. -/
  | unknown (number : UInt8)
deriving DecidableEq, Repr, Ord

namespace Protocol

/-- The protocol with a given number. -/
def ofNumber (n : UInt8) : Protocol :=
  if n = 1 then icmp else if n = 6 then tcp else if n = 17 then udp else unknown n

/-- The number of a protocol. -/
def number : Protocol → UInt8
  | icmp => 1
  | tcp => 6
  | udp => 17
  | unknown n => n

end Protocol

end TcpEngine
