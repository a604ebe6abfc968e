import TcpEngine.Network.Outbox
import TcpEngine.Proofs.Recorder
import TcpEngine.Proofs.Verification

/-!
# From the sender to the receiver

A segment on its way out gets its checksum in one piece: the pseudo header and both parts lie one
behind the other in a buffer of the arena. A segment that comes in is verified in place, and its sum
is put together from partial sums. Both agree.

* `Datagram.Carries`: the octets are those of the header, the payload and the filled-in checksum,
  and the receiver reads the header and the payload from them.
* `Link.Handed.carries`: every segment that is handed over is carried like that.
* `Host.send_carries`: what the network layer sees of a sending.
-/

namespace TcpEngine

/-- The datagram carries the header `q` and the payload `p` from `src` to `dst`. -/
structure Datagram.Carries (d : Datagram) (q : Header) (p : Octets) (src dst : Address) : Prop where
  destination : d.dst = dst
  protocol : d.protocol = .tcp
  /-- Any buffer of the right length can be filled with the segment. -/
  filled : ∀ b : Octets, b.length = Segment.headerLen + p.length → (do
    let b ← q.write b
    let b ← Segment.setPayload b p
    Segment.withChecksum b src dst) = .ok d.payload
  accepted : Header.parse d.payload (some (src, dst)) = .ok (.ok q)
  payload : Segment.payload d.payload = .ok p

theorem Segment.payload_segment (q : Header) (p : Octets) (src dst : Address) :
    Segment.payload (q.segment p src dst) = .ok p := by
  unfold Segment.payload Header.segment
  rw [Octets.split_append (q.length_octets _)]
  rfl

namespace Link

variable {α ν : Type} [Network ν] {l l' : Link α (Recorder ν)} {c : Connection} {f : Flags}
  {p : Octets} {r : Option Refusal}

theorem Handed.carries (h : l.Handed c f p r l') (hp : p.length ≤ maxPayload) :
    ∃ d, l'.network.handed = l.network.handed ++ [d] ∧
      d.Carries (c.nextHeader f p) p c.tuple.localAddr c.tuple.remoteAddr := by
  have hlen := fits hp
  refine ⟨_, h.handed, rfl, rfl, fun b hb => ?_, ?_, Segment.payload_segment ..⟩
  · have hassemble := Segment.assemble_eq (c.nextHeader f p) hb
    obtain ⟨b₁, hwrite, hcopy⟩ := Except.bind_eq_ok.mp hassemble
    rw [hwrite, Except.ok_bind, hcopy, Except.ok_bind]
    exact Header.withChecksum_octets _ 0 hlen _ _
  · exact Header.parse_segment_ends (c.nextHeader f p) hlen .verify _ _

end Link

namespace Host

variable {α ν : Type} [Arena α] [Network ν]

/-- A payload that fits a segment is sent in a segment that is handed over once, whether the network
layer accepts it or not, or the arena has failed and nothing is handed over. The segment carries the
numbers and ports of the record, and the other side accepts it and reads from it what was sent. -/
theorem send_carries {h : Host α (Recorder ν)} {k : Key} {c : Connection} (hk : h.get? k = some c)
    (f : Flags) {p : Octets} (hp : p.length ≤ 65515) :
    let q : Header := {
      srcPort := c.tuple.localPort, dstPort := c.tuple.remotePort, seqNumber := c.sendNext
      ackNumber := c.recvNext, flags := f, window := c.window, payloadLen := UInt16.ofNat p.length }
    ∃ a h', h.send k f p = .ok (a, h') ∧
      ((a = .error .noMemory ∧ h'.link.network = h.link.network) ∨
        ∃ r d, a = answerOf r ∧ h'.link.network.handed = h.link.network.handed ++ [d] ∧
          d.Carries q p c.tuple.localAddr c.tuple.remoteAddr) := by
  intro q
  obtain ⟨a, c', l', hs, he⟩ := send_cases hk f p
  refine ⟨a, _, he, ?_⟩
  cases hs with
  | tooLarge hlong => exact absurd hp (Nat.not_le_of_lt hlong)
  | unbuilt _ hu => exact .inl ⟨rfl, hu.network⟩
  | @handed r _ _ hh =>
    obtain ⟨d, hd, hc⟩ := hh.carries hp
    exact .inr ⟨r, d, rfl, hd, hc⟩

/-- A payload of odd length is sent, and the network layer refuses it. -/
theorem send_carries_refused : ∃ (h : Host Unbounded (Recorder Outbox)) (c : Connection)
    (h' : Host Unbounded (Recorder Outbox)) (d : Datagram),
    (start { address := ⟨10, 0, 0, 1⟩ } {} { layer :=
      { address := ⟨10, 0, 0, 1⟩, script := [some .device] } }).create ⟨10, 0, 0, 2⟩ 80 5000 =
        .ok (.ok ⟨0, 1⟩, h) ∧
    h.get? ⟨0, 1⟩ = some c ∧ ([1, 2, 3] : Octets).length ≤ 65515 ∧
    h.send ⟨0, 1⟩ .ACK [1, 2, 3] = .ok (.error (.undelivered .device), h') ∧
    h'.link.network.handed = [d] ∧
    d.Carries ⟨5000, 80, {}, {}, .ACK, 65535, 3⟩ [1, 2, 3] ⟨10, 0, 0, 1⟩ ⟨10, 0, 0, 2⟩ := by
  obtain ⟨h, hh⟩ : ∃ h, (start { address := ⟨10, 0, 0, 1⟩ } ({} : Unbounded) ({ layer :=
      { address := ⟨10, 0, 0, 1⟩, script := [some .device] } } : Recorder Outbox)).create
        ⟨10, 0, 0, 2⟩ 80 5000 = .ok (.ok ⟨0, 1⟩, h) := ⟨_, rfl⟩
  obtain ⟨c, hk⟩ : ∃ c, h.get? ⟨0, 1⟩ = some c := by
    cases hh
    exact ⟨_, rfl⟩
  have hp : ([1, 2, 3] : Octets).length ≤ 65515 := by decide
  obtain ⟨a, h', he, hcase⟩ := send_carries hk .ACK hp
  refine ⟨h, c, h', ?_⟩
  cases hh
  cases hk
  cases he
  obtain ⟨ha, -⟩ | ⟨r, d, -, hd, hc⟩ := hcase
  · cases ha
  · exact ⟨d, rfl, rfl, hp, rfl, hd, hc⟩

end Host

end TcpEngine
