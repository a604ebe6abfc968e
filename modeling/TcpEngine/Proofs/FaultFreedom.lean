import TcpEngine.Arena.Scripted
import TcpEngine.Network.Outbox
import TcpEngine.Proofs.Registry

/-!
# Calls never fault

Every operation checks the lengths that it relies on before it relies on them, whatever its arena
and its network layer do and whatever the user has made of a record. So no call of a run meets a
`Fault`: no access is out of range, no copy is between strings of different lengths, no counter and
no accumulator overflows, and no assertion fails.

* `Count.add?_length`, `Header.add?_bufferLen`: the sums of lengths are 64-bit counts.
* `Host.faultless`: all calls of a run, the two functions on segments that are used apart from a
  host, and the sums that are not checked one by one.
-/

namespace TcpEngine

namespace Count

theorem add?_eq {a b : Nat} (h : a + b < UInt64.size) : add? a b = some (a + b) := if_pos h

/-- The lengths of two strings can be added. -/
theorem add?_length {a b : Octets} (ha : a.length ≤ Unbounded.longest)
    (hb : b.length ≤ Unbounded.longest) : add? a.length b.length = some (a.length + b.length) :=
  add?_eq (Nat.lt_of_le_of_lt (Nat.add_le_add ha hb) (by decide))

end Count

namespace Header

theorem add?_bufferLen (h : Header) :
    Count.add? Segment.headerLen h.payloadLen.toNat = some h.bufferLen := by
  have hlen := h.payloadLen.toNat_lt
  exact Count.add?_eq (by simp only [Segment.headerLen, UInt64.size]; omega)

theorem add?_sequenceLen (h : Header) :
    Count.add? h.payloadLen.toNat h.flags.sequenceLen = some h.sequenceLen := by
  have hlen := h.payloadLen.toNat_lt
  have hsyn := h.flags.syn.toNat_le
  have hfin := h.flags.fin.toNat_le
  exact Count.add?_eq (by simp only [Flags.sequenceLen, UInt64.size]; omega)

end Header

namespace Host

/-- After any run, no call faults, nor does closing the host. Reading the header of a datagram and
computing the checksum of a segment in two parts never fault at all. A plain sum is no less than any
sum on the way to it, and lengths are added within 64 bits. -/
theorem faultless {α ν : Type} [Arena α] [Network ν] (cfg : Config) (arena : α) (network : ν)
    (cs : List (Call α ν)) :
    (∃ log h, (start cfg arena network).run cs = .ok (log, h) ∧
      (∀ c, ∃ a h', h.call c = .ok (a, h')) ∧ ∃ n l, h.stop = .ok (n, l)) ∧
    (∀ d : Datagram, ∃ r, d.header = .ok r) ∧
    (∀ (arena : α) header payload src dst, ∃ r arena',
      segmentChecksum arena header payload src dst = .ok (r, arena')) ∧
    (∀ b k, Checksum.total 0 (b.take (2 * k)) ≤ Checksum.total 0 b) ∧
    (∀ (sums : List UInt16) k, (sums.take k).foldl (fun n w => n + w.toNat) 0 ≤
      sums.foldl (fun n w => n + w.toNat) 0) ∧
    (∀ header payload : Octets, header.length ≤ Unbounded.longest →
      payload.length ≤ Unbounded.longest →
      Count.add? header.length payload.length = some (header.length + payload.length)) ∧
    (∀ n ≤ Segment.maxLen,
      Count.add? Checksum.pseudoHeaderLen n = some (Checksum.pseudoHeaderLen + n)) ∧
    ∀ h : Header, Count.add? Segment.headerLen h.payloadLen.toNat = some h.bufferLen ∧
      Count.add? h.payloadLen.toNat h.flags.sequenceLen = some h.sequenceLen := by
  refine ⟨?_, fun d => Header.parse_ok d.payload _, fun arena header payload src dst => ?_,
    Checksum.total_take_le, Checksum.foldl_take_le, fun _ _ => Count.add?_length, fun n hn => ?_,
    fun h => ⟨h.add?_bufferLen, h.add?_sequenceLen⟩⟩
  · obtain ⟨log, h, hr, hs⟩ := run_sound cfg arena network cs
    refine ⟨log, h, hr, fun c => ?_, ?_⟩
    · obtain ⟨a, h', he, -⟩ := call_cases hs.wellFormed c
      exact ⟨a, h', he⟩
    · obtain ⟨l, he⟩ := stop_eq hs.wellFormed
      exact ⟨_, l, he⟩
  · obtain ⟨r, arena', -, he⟩ := segmentChecksum_computed arena header payload src dst
    exact ⟨r, arena', he⟩
  · exact Count.add?_eq (Nat.lt_of_le_of_lt (Nat.add_le_add_left hn _) (by decide))

/-- The user spoils a record, the arena gives buffers of wrong lengths, and a segment is cut off. -/
theorem faultless_spoiled : ∃ (spoiled : Connection) (cs : List (Call Scripted Outbox)),
    spoiled = ⟨.closeWait, ⟨⟨0, 0, 0, 0⟩, ⟨255, 255, 255, 255⟩, 65535, 0⟩, ⟨4294967295⟩, {}, ⟨7⟩,
      0⟩ ∧
    cs = [.create ⟨10, 0, 0, 2⟩ 80 5000, .edit ⟨0, 1⟩ fun _ => spoiled, .send ⟨0, 1⟩ .FIN [1, 2],
      .send ⟨0, 1⟩ .FIN [1, 2], .receive [1, 2, 3] ⟨10, 0, 0, 2⟩ ⟨10, 0, 0, 1⟩, .close ⟨9, 1⟩,
      .close ⟨0, 1⟩] ∧
    (∃ log h, (start { address := ⟨10, 0, 0, 1⟩ } { script := [some (-5), some 0, some 1] }
        { address := ⟨10, 0, 0, 1⟩ }).run cs = .ok (log, h) ∧ log.reverse.map (·.answer) =
      [.key (.ok ⟨0, 1⟩), .nothing, .done (.error .noMemory), .done (.error .noMemory),
        .done (.error (.rejected .truncated)), .nothing, .nothing] ∧
      ∃ a h', h.call (.connect ⟨0, 1⟩) = .ok (a, h')) ∧
    ∃ header payload : Octets, header = List.replicate 20 0 ∧ payload = [1, 2] ∧
      header.length ≤ Unbounded.longest ∧ payload.length ≤ Unbounded.longest ∧
      Count.add? header.length payload.length = some 22 ∧ 22 ≤ Segment.maxLen ∧
      Count.add? Checksum.pseudoHeaderLen 22 = some 34 := by
  obtain ⟨spoiled, hspoiled⟩ : ∃ spoiled : Connection, spoiled = ⟨.closeWait,
    ⟨⟨0, 0, 0, 0⟩, ⟨255, 255, 255, 255⟩, 65535, 0⟩, ⟨4294967295⟩, {}, ⟨7⟩, 0⟩ := ⟨_, rfl⟩
  obtain ⟨⟨log, h, hr, hcall, -⟩, -, -, -, -, hlengths, hneeded, -⟩ :=
    faultless { address := ⟨10, 0, 0, 1⟩ } ({ script := [some (-5), some 0, some 1] } : Scripted)
      ({ address := ⟨10, 0, 0, 1⟩ } : Outbox)
      [.create ⟨10, 0, 0, 2⟩ 80 5000, .edit ⟨0, 1⟩ fun _ => spoiled, .send ⟨0, 1⟩ .FIN [1, 2],
        .send ⟨0, 1⟩ .FIN [1, 2], .receive [1, 2, 3] ⟨10, 0, 0, 2⟩ ⟨10, 0, 0, 1⟩, .close ⟨9, 1⟩,
        .close ⟨0, 1⟩]
  have hpayload : ([1, 2] : Octets).length ≤ Unbounded.longest := by decide
  have hheader : (List.replicate 20 0 : Octets).length ≤ Unbounded.longest := by decide
  refine ⟨spoiled, _, hspoiled, rfl, ⟨log, h, hr, ?_, hcall _⟩, _, _, rfl, rfl, hheader, hpayload,
    hlengths _ _ hheader hpayload, by decide, hneeded 22 (by decide)⟩
  subst hspoiled
  cases hr
  rfl

end Host

end TcpEngine
