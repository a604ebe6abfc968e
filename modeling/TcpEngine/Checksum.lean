import TcpEngine.Address
import TcpEngine.Octets
import TcpEngine.Protocol

/-!
# The one's-complement checksum

Sums of 16-bit words in which a carry out of the top bit comes back at the bottom. The words are
first added one by one in a 32-bit accumulator, those of a string in chunks of 32 octets as long as
there are any, and then the carries are folded in, twice. Sums of parts are put together by summing
them in turn.

* `ofOctets`: the sum of the big-endian words of a string; a last odd octet counts as the upper half
  of a word.
* `ofParts`: the sum of sums.
* `ofPseudoHeader`: the sum of the twelve octets in front of a segment that bind it to its two
  addresses.
-/

namespace TcpEngine

namespace Checksum

/-- The accumulator `n` with one more word. The sum must fit 32 bits. -/
def accumulate (n word : Nat) : Checked Nat :=
  if n + word < UInt32.size then .ok (n + word) else .error .overflow

/-- The sum `n` of 16-bit words with its carries folded in. The sum must fit 32 bits, and what is
left after the folding must fit 16. -/
def fold (n : Nat) : Checked UInt16 :=
  let folded := n / 65536 + n % 65536
  let word := folded / 65536 + folded % 65536
  if n < UInt32.size ∧ word < UInt16.size then .ok (UInt16.ofNat word) else .error .overflow

/-- The accumulator `n` with the big-endian words of a string, and the octet behind the last of
them, if there is one. -/
def addWords (n : Nat) : Octets → Checked (Nat × Option UInt8)
  | [] => .ok (n, none)
  | [x] => .ok (n, some x)
  | x :: y :: r => do
    let n ← accumulate n (256 * x.toNat + y.toNat)
    addWords n r

/-- The accumulator `n` with an octet that has no other behind it, as the upper half of a word. -/
def addOdd (n : Nat) : Option UInt8 → Checked Nat
  | none => .ok n
  | some x => accumulate n (256 * x.toNat)

/-- The number of octets of a chunk. -/
def chunkLen : Nat := 32

/-- The accumulator `n` with the words of the first `k` chunks of a string, and what is behind
them. -/
def addChunks (n : Nat) : Nat → Octets → Checked (Nat × Octets)
  | 0, b => .ok (n, b)
  | k + 1, b => do
    let (chunk, rest) ← Octets.split b chunkLen
    let (n, _) ← addWords n chunk
    addChunks n k rest

/-- The checksum of a string of octets, not complemented. -/
def ofOctets (b : Octets) : Checked UInt16 := do
  let (n, rest) ← addChunks 0 (b.length / chunkLen) b
  let (n, odd) ← addWords n rest
  let n ← addOdd n odd
  fold n

/-- The checksum of parts with the checksums `sums`, not complemented. -/
def ofParts (sums : List UInt16) : Checked UInt16 := do
  let n ← sums.foldlM (fun n w => accumulate n w.toNat) 0
  fold n

/-- The number of octets of the pseudo header. -/
def pseudoHeaderLen : Nat := 12

/-- The octets of the pseudo header: both addresses, a zero, the protocol and the length of the
segment. -/
def pseudoOctets (src dst : Address) (protocol : Protocol) (length : UInt16) : Octets :=
  src.octets ++ dst.octets ++ [0, protocol.number] ++ Octets.ofUInt16 length

/-- The buffer `b` with the pseudo header in its first twelve octets. -/
def writePseudoHeader (b : Octets) (src dst : Address) (protocol : Protocol) (length : UInt16) :
    Checked Octets :=
  Octets.write b 0 (pseudoOctets src dst protocol length)

/-- The checksum of the pseudo header, not complemented. -/
def ofPseudoHeader (src dst : Address) (protocol : Protocol) (length : UInt16) : Checked UInt16 :=
  ofOctets (pseudoOctets src dst protocol length)

end Checksum

/-- Whether a host verifies the checksums of the segments it receives. -/
inductive ChecksumPolicy where
  /-- Every checksum is verified. -/
  | verify
  /-- Checksums of received segments are not looked at. -/
  | ignore
deriving DecidableEq, Repr, Inhabited

/-- The addresses against which a segment from `src` to `dst` is verified, if it is. -/
def ChecksumPolicy.ends (p : ChecksumPolicy) (src dst : Address) : Option (Address × Address) :=
  match p with
  | .verify => some (src, dst)
  | .ignore => none

end TcpEngine
