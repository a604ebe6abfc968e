import TcpEngine.Arena.Budget
import TcpEngine.Arena.Scripted

/-!
# Arenas chosen at run time

The sum of the arenas of this library, for programs that decide which one to use while they run.
-/

namespace TcpEngine

/-- One of the arenas of this library. -/
inductive Pool where
  | unbounded (a : Unbounded)
  | budget (a : Budget)
  | scripted (a : Scripted)
deriving DecidableEq, Repr

namespace Pool

def allocate : Pool → Nat → Option Octets × Pool
  | unbounded a, n => (Arena.allocate a n).map id unbounded
  | budget a, n => (Arena.allocate a n).map id budget
  | scripted a, n => (Arena.allocate a n).map id scripted

def release : Pool → Octets → Pool
  | unbounded a, b => unbounded (Arena.release a b)
  | budget a, b => budget (Arena.release a b)
  | scripted a, b => scripted (Arena.release a b)

end Pool

instance : Arena Pool where
  allocate := Pool.allocate
  release := Pool.release

end TcpEngine
