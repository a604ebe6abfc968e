import TcpEngine.Fault

/-!
# Strings of octets and big-endian words

Buffers and segments are lists of octets. Words of 16 and 32 bits are stored with the most
significant octet first. Every access is checked: it faults if the word, slice or copy does not lie
within the string.

* `ofUInt16`, `ofUInt32`: the octets of a word; `word16`, `word32` put them together again.
* `read8`, `read16`, `read32`: the word at a position.
* `write`: the string with some octets replaced, of the same length.
* `split`: the parts before and behind a position.
-/

namespace TcpEngine

/-- A string of octets. -/
abbrev Octets := List UInt8

namespace Octets

/-- The 16-bit word with the octets `hi` and `lo`. -/
def word16 (hi lo : UInt8) : UInt16 := UInt16.ofNat (256 * hi.toNat + lo.toNat)

/-- The 32-bit word with the 16-bit halves `hi` and `lo`. -/
def join32 (hi lo : UInt16) : UInt32 := UInt32.ofNat (65536 * hi.toNat + lo.toNat)

/-- The 32-bit word with the octets `a`, `b`, `c` and `d`. -/
def word32 (a b c d : UInt8) : UInt32 := join32 (word16 a b) (word16 c d)

/-- The two octets of a 16-bit word. -/
def ofUInt16 (w : UInt16) : Octets := [UInt8.ofNat (w.toNat / 256), UInt8.ofNat w.toNat]

/-- The four octets of a 32-bit word. -/
def ofUInt32 (w : UInt32) : Octets :=
  ofUInt16 (UInt16.ofNat (w.toNat / 65536)) ++ ofUInt16 (UInt16.ofNat w.toNat)

/-- The octet at position `i`. -/
def read8 (b : Octets) (i : Nat) : Checked UInt8 :=
  match b.drop i with
  | x :: _ => .ok x
  | _ => .error .outOfRange

/-- The 16-bit word at position `i`. -/
def read16 (b : Octets) (i : Nat) : Checked UInt16 :=
  match b.drop i with
  | x :: y :: _ => .ok (word16 x y)
  | _ => .error .outOfRange

/-- The 32-bit word at position `i`. -/
def read32 (b : Octets) (i : Nat) : Checked UInt32 :=
  match b.drop i with
  | w :: x :: y :: z :: _ => .ok (word32 w x y z)
  | _ => .error .outOfRange

/-- The string `b` with the octets from position `i` on replaced by `v`. -/
def write (b : Octets) (i : Nat) (v : Octets) : Checked Octets :=
  if i + v.length ≤ b.length then .ok (b.take i ++ v ++ b.drop (i + v.length))
  else .error .outOfRange

/-- The octets of `b` before and from position `n`. -/
def split (b : Octets) (n : Nat) : Checked (Octets × Octets) :=
  if n ≤ b.length then .ok (b.take n, b.drop n) else .error .outOfRange

/-- The copy of `v` over all of `b`, which has the same length. -/
def copy (b v : Octets) : Checked Octets :=
  if b.length = v.length then .ok v else .error .lengthMismatch

end Octets

end TcpEngine
