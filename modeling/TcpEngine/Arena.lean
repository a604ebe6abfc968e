import TcpEngine.Octets

/-!
# Arenas

An arena hands out buffers of an asked length and takes them back. Running out of memory is an
ordinary answer. The arenas of a program are the values of a type `α`; allocating and releasing
change the value.

* `Unbounded`: an arena without a limit of its own.
-/

namespace TcpEngine

/-- The arenas of type `α`. `allocate` is asked for a length and gives a buffer, or none;
`release` takes a buffer back. -/
class Arena (α : Type) where
  allocate : α → Nat → Option Octets × α
  release : α → Octets → α

/-- The arena that is limited only by what can be addressed. -/
structure Unbounded where
deriving DecidableEq, Repr, Inhabited

namespace Unbounded

/-- The length of the longest string of octets that can be addressed. -/
def longest : Nat := UInt64.size / 2 - 1

/-- A zeroed buffer of `len` octets, unless it is too long to be addressed. -/
def buffer? (len : Nat) : Option Octets :=
  if len ≤ longest then some (List.replicate len 0) else none

end Unbounded

instance : Arena Unbounded where
  allocate h len := (Unbounded.buffer? len, h)
  release h _ := h

end TcpEngine
