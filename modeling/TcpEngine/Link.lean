import TcpEngine.Arena
import TcpEngine.Journal

/-!
# Sending a segment

A link is what a host works with beside its connection table: an arena for its buffers, the network
layer below, and the journal. Sending a segment takes two buffers from the arena, one for the
segment and, while that is held, one for its checksum. Both are given back before the operation
ends, whatever happens on the way.

* `segmentChecksum`: the checksum of a segment in two parts, computed in a buffer of the arena.
* `send`: builds the next segment of a connection and hands it over. The connection moves on in
  its sequence numbers as soon as the network layer has seen the segment, even if it refuses it.
-/

namespace TcpEngine

/-- An arena, a network layer and the journal written so far. -/
structure Link (α ν : Type) where
  arena : α
  network : ν
  journal : List Note := []
deriving DecidableEq, Repr

section

variable {α : Type} [Arena α]

/-- The contents of a buffer `b` that the checksum of `header` and `payload` is taken of: the
pseudo header and behind it both parts. -/
def scratch (b header payload : Octets) (src dst : Address) (length : UInt16) : Checked Octets := do
  let (front, room) ← Octets.split b Checksum.pseudoHeaderLen
  let pseudo ← Checksum.writePseudoHeader front src dst .tcp length
  let (headerRoom, payloadRoom) ← Octets.split room header.length
  let head ← Octets.copy headerRoom header
  let tail ← Octets.copy payloadRoom payload
  return pseudo ++ (head ++ tail)

/-- The checksum field of the segment that consists of `header` and `payload`, taken with the field
as it stands in `header`. -/
def segmentChecksum (arena : α) (header payload : Octets) (src dst : Address) :
    Checked (Except Error UInt16 × α) :=
  let length := header.length + payload.length
  if length > Segment.maxLen then .ok (.error .tooLarge, arena)
  else
    let needed := Checksum.pseudoHeaderLen + length
    match Arena.allocate arena needed with
    | (none, arena) => .ok (.error .noMemory, arena)
    | (some b, arena) =>
      if b.length ≠ needed then .ok (.error .noMemory, Arena.release arena b)
      else do
        let b ← scratch b header payload src dst (UInt16.ofNat length)
        let sum ← Checksum.ofOctets b
        return (.ok (~~~sum), Arena.release arena b)

end

namespace Link

variable {α ν : Type}

/-- The link with one more note in its journal. -/
def note (l : Link α ν) (n : Note) : Link α ν := { l with journal := l.journal ++ [n] }

variable [Arena α] [Network ν]

/-- The link with a buffer given back to its arena. -/
def release (l : Link α ν) (b : Octets) : Link α ν := { l with arena := Arena.release l.arena b }

/-- The longest payload of a segment. -/
def maxPayload : Nat := Segment.maxLen - Segment.headerLen

/-- Hands the finished segment `b` with the header `h` over for the connection `c`, and gives the
buffer back. -/
def handOver (l : Link α ν) (c : Connection) (h : Header) (b : Octets) :
    Except Error Unit × Connection × Link α ν :=
  let (answer, network) := Network.deliver l.network c.tuple.remoteAddr .tcp b
  let c' := { c with sendNext := c.sendNext.add h.sequenceLen }
  let l' := { l with network }.release b
  match answer with
  | .ok () => (.ok (), c', l'.note (.sent c.tuple.localAddr c.tuple.remoteAddr h))
  | .error e =>
    (.error (.undelivered e), c', l'.note (.refused c.tuple.localAddr c.tuple.remoteAddr h e))

/-- Writes the segment with the header `h` and the given payload into the buffer `b`, and hands it
over with its checksum. -/
def finish (l : Link α ν) (c : Connection) (h : Header) (payload b : Octets) :
    Checked (Except Error Unit × Connection × Link α ν) := do
  let b ← Segment.assemble h payload b
  let (front, rest) ← Octets.split b Segment.headerLen
  let (sum, arena) ← segmentChecksum l.arena front rest c.tuple.localAddr c.tuple.remoteAddr
  let l := { l with arena }
  match sum with
  | .error e => return (.error e, c, (l.note (.noChecksum h e)).release b)
  | .ok sum =>
    let b ← Segment.setChecksum b sum
    return l.handOver c h b

/-- Sends the next segment of the connection `c`, with the given flags and payload. -/
def send (l : Link α ν) (c : Connection) (flags : Flags) (payload : Octets) :
    Checked (Except Error Unit × Connection × Link α ν) :=
  if payload.length > maxPayload then
    .ok (.error .tooLarge, c, l.note (.oversized payload.length))
  else
    let h := c.header flags (UInt16.ofNat payload.length)
    match Arena.allocate l.arena h.bufferLen with
    | (none, arena) => .ok (.error .noMemory, c, { l with arena }.note (.noBuffer h))
    | (some b, arena) =>
      let l := { l with arena }
      if b.length ≠ h.bufferLen then .ok (.error .noMemory, c, l.release b)
      else l.finish c h payload b

end Link

end TcpEngine
