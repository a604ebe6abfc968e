/-!
# Sequence numbers

Positions on a line of 32-bit numbers that wraps around. One number is less than another if the
way from it up to the other is shorter than the way down: the order is that of the signed distance.
Two numbers half the line apart are each less than the other.
-/

namespace TcpEngine

/-- A 32-bit sequence number. -/
structure SeqNumber where
  value : UInt32 := 0
deriving DecidableEq, Repr, Inhabited

namespace SeqNumber

instance : ToString SeqNumber where
  toString s := toString s.value

/-- The number `n` places further on. -/
def add (s : SeqNumber) (n : Nat) : SeqNumber := ⟨s.value + UInt32.ofNat n⟩

/-- How many places `s` is further on than `t`. -/
def sub (s t : SeqNumber) : Nat := (s.value - t.value).toNat

/-- The signed distance from `t` to `s`, from -2^31 to 2^31 - 1. -/
def distance (s t : SeqNumber) : Int := Int.bmod (s.sub t) UInt32.size

/-- The order of two sequence numbers, by their signed distance. -/
def compare (s t : SeqNumber) : Ordering := Ord.compare (s.distance t) 0

/-- `s` comes before `t`. -/
def lt (s t : SeqNumber) : Bool := s.compare t == .lt

/-- `s` comes before `t` or is equal to it. -/
def le (s t : SeqNumber) : Bool := (s.compare t).isLE

/-- `s` comes behind `t`. -/
def gt (s t : SeqNumber) : Bool := s.compare t == .gt

/-- `s` comes behind `t` or is equal to it. -/
def ge (s t : SeqNumber) : Bool := (s.compare t).isGE

end SeqNumber

end TcpEngine
