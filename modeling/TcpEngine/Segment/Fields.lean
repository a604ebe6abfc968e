import TcpEngine.Checksum
import TcpEngine.Flags
import TcpEngine.SeqNumber

/-!
# Segment buffers

A segment is a header of 20 octets and a payload. The header fields lie at fixed positions:

| octets | field                  |
|--------|------------------------|
| 0, 1   | source port            |
| 2, 3   | destination port       |
| 4 - 7  | sequence number        |
| 8 - 11 | acknowledgment number  |
| 12     | flags                  |
| 13     | reserved, zero         |
| 14, 15 | window                 |
| 16, 17 | checksum               |
| 18, 19 | urgent pointer         |

Each field has a reader and a writer on the buffer. They need only the octets of the field itself
to be in the buffer, and fault otherwise. The checksum covers the pseudo header and the whole
segment.
-/

namespace TcpEngine

namespace Segment

/-- The length of the header. -/
def headerLen : Nat := 20

/-- The largest length of a segment: the pseudo header has 16 bits for it. -/
def maxLen : Nat := 65535

/-! ## Readers -/

def srcPort (b : Octets) : Checked UInt16 := Octets.read16 b 0

def dstPort (b : Octets) : Checked UInt16 := Octets.read16 b 2

def seqNumber (b : Octets) : Checked SeqNumber := SeqNumber.mk <$> Octets.read32 b 4

def ackNumber (b : Octets) : Checked SeqNumber := SeqNumber.mk <$> Octets.read32 b 8

def flags (b : Octets) : Checked Flags := Flags.mk <$> Octets.read8 b 12

def window (b : Octets) : Checked UInt16 := Octets.read16 b 14

def checksum (b : Octets) : Checked UInt16 := Octets.read16 b 16

def urgent (b : Octets) : Checked UInt16 := Octets.read16 b 18

/-- The octets behind the header. -/
def payload (b : Octets) : Checked Octets := Prod.snd <$> Octets.split b headerLen

/-! ## Writers -/

def setSrcPort (b : Octets) (v : UInt16) : Checked Octets := Octets.write b 0 (Octets.ofUInt16 v)

def setDstPort (b : Octets) (v : UInt16) : Checked Octets := Octets.write b 2 (Octets.ofUInt16 v)

def setSeqNumber (b : Octets) (v : SeqNumber) : Checked Octets :=
  Octets.write b 4 (Octets.ofUInt32 v.value)

def setAckNumber (b : Octets) (v : SeqNumber) : Checked Octets :=
  Octets.write b 8 (Octets.ofUInt32 v.value)

/-- Writes the flags and clears the reserved octet behind them. -/
def setFlags (b : Octets) (v : Flags) : Checked Octets := Octets.write b 12 [v.bits, 0]

def setWindow (b : Octets) (v : UInt16) : Checked Octets := Octets.write b 14 (Octets.ofUInt16 v)

def setChecksum (b : Octets) (v : UInt16) : Checked Octets := Octets.write b 16 (Octets.ofUInt16 v)

def setUrgent (b : Octets) (v : UInt16) : Checked Octets := Octets.write b 18 (Octets.ofUInt16 v)

/-- Copies `v` over the payload, which has the same length. -/
def setPayload (b v : Octets) : Checked Octets := do
  let (header, room) ← Octets.split b headerLen
  let body ← Octets.copy room v
  return header ++ body

/-! ## The checksum -/

/-- The checksum of pseudo header and segment, as it stands. -/
def sum (b : Octets) (src dst : Address) : Checked UInt16 := do
  let pseudo ← Checksum.ofPseudoHeader src dst .tcp (UInt16.ofNat b.length)
  let segment ← Checksum.ofOctets b
  Checksum.ofParts [pseudo, segment]

/-- Whether the checksum field is right for a segment from `src` to `dst`: all words together sum
up to ones only. -/
def verify (b : Octets) (src dst : Address) : Checked Bool := do
  let s ← sum b src dst
  return s == 0xffff

/-- Computes the checksum with the field cleared, and writes its complement into the field. -/
def withChecksum (b : Octets) (src dst : Address) : Checked Octets := do
  let cleared ← setChecksum b 0
  let s ← sum cleared src dst
  setChecksum cleared (~~~s)

end Segment

end TcpEngine
