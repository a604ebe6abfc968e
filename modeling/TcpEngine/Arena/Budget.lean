import TcpEngine.Arena

/-!
# Arenas with a budget

A budget counts the octets it has handed out and refuses a buffer that would bring the count above
its limit. It also remembers the highest count. A buffer that is given back lowers the count
by its length, down to zero at most, wherever it came from.
-/

namespace TcpEngine

/-- An arena with at most `limit` octets handed out at a time. -/
structure Budget where
  limit : Nat
  /-- The octets handed out and not taken back. -/
  held : Nat := 0
  /-- The highest number of octets that were handed out at a time. -/
  peak : Nat := 0
deriving DecidableEq, Repr

namespace Budget

/-- A buffer of `len` octets within the budget. -/
def allocate (a : Budget) (len : Nat) : Option Octets × Budget :=
  match Count.add? a.held len with
  | none => (none, a)
  | some n =>
    if n > a.limit then (none, a)
    else match Unbounded.buffer? len with
      | none => (none, a)
      | some b => (some b, { a with held := n, peak := max a.peak n })

/-- Takes the octets of `b` back. -/
def release (a : Budget) (b : Octets) : Budget :=
  { a with held := a.held - b.length }

end Budget

instance : Arena Budget where
  allocate := Budget.allocate
  release := Budget.release

end TcpEngine
