/-!
# Network addresses

An address has four octets. It is written as four decimal numbers separated by dots, and addresses
are ordered by their octets from the first to the last.
-/

namespace TcpEngine

/-- A network address of four octets, 0.0.0.0 unless said otherwise. -/
structure Address where
  a : UInt8 := 0
  b : UInt8 := 0
  c : UInt8 := 0
  d : UInt8 := 0
deriving DecidableEq, Repr, Inhabited, Ord

namespace Address

/-- The four octets of an address, in the order in which they are transmitted. -/
def octets (x : Address) : List UInt8 := [x.a, x.b, x.c, x.d]

instance : ToString Address where
  toString x := s!"{x.a}.{x.b}.{x.c}.{x.d}"

end Address

end TcpEngine
