import TcpEngine.Segment.Fields

/-!
# Segment headers

The header of a segment as a value, read from octets and written into them. Reading rejects a
segment for exactly three reasons, in this order: it is shorter than a header, it is longer than a
segment can be, or its checksum is wrong and was asked for. The reserved octet, the checksum and
the urgent pointer are not part of the value; they are written as zeros.

* `Header.parse`: the header of a segment, or why it is rejected.
* `Header.write`: a buffer with the header in front.
* `Segment.build`: a whole segment with its checksum.
-/

namespace TcpEngine

/-- Why a string of octets is not accepted as a segment. -/
inductive Rejection where
  /-- There are fewer octets than a header has. -/
  | truncated
  /-- The checksum does not match. -/
  | wrongChecksum
  /-- There are more octets than a segment can have. -/
  | malformed
deriving DecidableEq, Repr

namespace Rejection

def message : Rejection → String
  | truncated => "truncated segment"
  | wrongChecksum => "checksum error"
  | malformed => "malformed segment"

instance : ToString Rejection := ⟨message⟩

end Rejection

/-- The header of a segment, with the length of the payload behind it. -/
structure Header where
  srcPort : UInt16
  dstPort : UInt16
  seqNumber : SeqNumber
  ackNumber : SeqNumber
  flags : Flags
  window : UInt16
  payloadLen : UInt16
deriving DecidableEq, Repr, Inhabited

namespace Segment

/-- Rejects a segment that is shorter than a header. -/
def checkLength (b : Octets) : Except Rejection Unit :=
  if b.length < headerLen then .error .truncated else .ok ()

/-- The text of a header with a payload of `len` octets; the acknowledgment number is written only
if it is in use. -/
def describe (h : Header) (len : Nat) : String :=
  let ack := if h.flags.ack then s!" ack={h.ackNumber}" else ""
  s!"TCP src={h.srcPort} dst={h.dstPort} {h.flags} seq={h.seqNumber}{ack} win={h.window} len={len}"

end Segment

namespace Header

/-- The length of a segment with this header. -/
def bufferLen (h : Header) : Nat := Segment.headerLen + h.payloadLen.toNat

/-- The places that a segment takes in the sequence of octets: those of its payload and those of
its flags. -/
def sequenceLen (h : Header) : Nat := h.payloadLen.toNat + h.flags.sequenceLen

instance : ToString Header where
  toString h := Segment.describe h h.payloadLen.toNat

/-- The fields of a buffer as a header. The payload length is kept modulo 2^16. -/
def read (b : Octets) : Checked Header := do
  let srcPort ← Segment.srcPort b
  let dstPort ← Segment.dstPort b
  let seqNumber ← Segment.seqNumber b
  let ackNumber ← Segment.ackNumber b
  let flags ← Segment.flags b
  let window ← Segment.window b
  let payload ← Segment.payload b
  return { srcPort, dstPort, seqNumber, ackNumber, flags, window
           payloadLen := UInt16.ofNat payload.length }

/-- Whether a segment passes the verification between `ends`, if there is to be one. -/
def verified (b : Octets) : Option (Address × Address) → Checked Bool
  | none => .ok true
  | some (src, dst) => Segment.verify b src dst

/-- The header of the segment `b`, verified between `ends`, or why the segment is rejected. -/
def parse (b : Octets) (ends : Option (Address × Address)) : Checked (Except Rejection Header) :=
  if b.length < Segment.headerLen then .ok (.error .truncated)
  else if b.length > Segment.maxLen then .ok (.error .malformed)
  else do
    let valid ← verified b ends
    if valid then
      let h ← read b
      return .ok h
    else
      return .error .wrongChecksum

/-- The buffer `b` with the header in its first 20 octets; checksum and urgent pointer are zero. -/
def write (h : Header) (b : Octets) : Checked Octets := do
  let b ← Segment.setSrcPort b h.srcPort
  let b ← Segment.setDstPort b h.dstPort
  let b ← Segment.setSeqNumber b h.seqNumber
  let b ← Segment.setAckNumber b h.ackNumber
  let b ← Segment.setFlags b h.flags
  let b ← Segment.setWindow b h.window
  let b ← Segment.setChecksum b 0
  Segment.setUrgent b 0

end Header

namespace Segment

/-- The text of a buffer taken as a segment. -/
def display (b : Octets) : Checked String :=
  match checkLength b with
  | .error r => .ok s!"TCP ({r})"
  | .ok () => do
    let h ← Header.read b
    return describe h (b.length - headerLen)

/-- The buffer `b` with the header `h` and the payload `p`, but without a checksum. -/
def assemble (h : Header) (p b : Octets) : Checked Octets := do
  let b ← h.write b
  setPayload b p

/-- The segment from `src` to `dst` with the header `h` and the payload `p`, with its checksum. -/
def build (h : Header) (p : Octets) (src dst : Address) : Checked Octets := do
  let b ← assemble h p (List.replicate (headerLen + p.length) 0)
  withChecksum b src dst

end Segment

end TcpEngine
