import TcpEngine.Host
import TcpEngine.Proofs.Segment

/-!
# The outcomes of sending

The checksum of a segment in two parts is computed, or there is an error (`Computed`), but never a
fault (`segmentChecksum_computed`). Sending a segment has one of three outcomes (`Link.Sent`), and
never faults either (`Link.send_cases`):

* the payload is too long for a segment;
* the segment is not built because the arena failed (`Link.Unbuilt`): the network layer sees
  nothing and the connection stays as it is;
* the finished segment `Connection.segment` is handed over (`Link.Handed`): the network layer
  accepts or refuses it, and the connection moves on in its sequence numbers either way
  (`Connection.advance`).
-/

namespace TcpEngine

namespace Connection

/-- The header of the segment that the connection sends next. -/
def nextHeader (c : Connection) (f : Flags) (p : Octets) : Header :=
  c.header f (UInt16.ofNat p.length)

/-- The segment that the connection sends next, with its checksum. -/
def segment (c : Connection) (f : Flags) (p : Octets) : Octets :=
  (c.nextHeader f p).segment p c.tuple.localAddr c.tuple.remoteAddr

/-- The connection behind the segment it has sent. -/
def advance (c : Connection) (f : Flags) (p : Octets) : Connection :=
  { c with sendNext := c.sendNext.add (c.nextHeader f p).sequenceLen }

/-- What a record keeps as long as the user does not change it. -/
def fixed (c : Connection) : FourTuple × SeqNumber × UInt16 := (c.tuple, c.initialSeq, c.window)

theorem tuple_eq {c c' : Connection} (h : c'.fixed = c.fixed) : c'.tuple = c.tuple :=
  congrArg Prod.fst h

/-- A payload that fits a segment has its length in the header. -/
theorem payloadLen_nextHeader (c : Connection) (f : Flags) {p : Octets}
    (hp : p.length ≤ Link.maxPayload) : (c.nextHeader f p).payloadLen.toNat = p.length := by
  have hlt : p.length < 2 ^ 16 := Nat.lt_of_le_of_lt hp (by decide)
  show (UInt16.ofNat p.length).toNat = _
  rw [UInt16.toNat_ofNat', Nat.mod_eq_of_lt hlt]

theorem bufferLen_nextHeader (c : Connection) (f : Flags) {p : Octets}
    (hp : p.length ≤ Link.maxPayload) :
    (c.nextHeader f p).bufferLen = Segment.headerLen + p.length := by
  rw [Header.bufferLen, c.payloadLen_nextHeader f hp]

/-- Payload and flags take their places in the sequence. -/
theorem advance_eq (c : Connection) (f : Flags) {p : Octets} (hp : p.length ≤ Link.maxPayload) :
    c.advance f p = { c with sendNext := c.sendNext.add (p.length + f.sequenceLen) } := by
  unfold advance Header.sequenceLen
  rw [c.payloadLen_nextHeader f hp]
  rfl

theorem advance_nil (c : Connection) (f : Flags) :
    c.advance f [] = { c with sendNext := c.sendNext.add f.sequenceLen } := by
  rw [c.advance_eq f (Nat.zero_le _), List.length_nil, Nat.zero_add]

end Connection

/-- A payload that is not too long fits a segment behind the header. -/
theorem Link.fits {p : Octets} (hp : p.length ≤ Link.maxPayload) :
    Segment.headerLen + p.length ≤ Segment.maxLen := by
  have hp' : p.length ≤ 65515 := hp
  simp only [Segment.headerLen, Segment.maxLen]
  omega

/-! ## The checksum -/

section

variable {α : Type} [Arena α]

/-- A buffer of the right length takes up the pseudo header and both parts of the segment. -/
theorem scratch_eq {b header payload : Octets}
    (hb : b.length = Checksum.pseudoHeaderLen + (header.length + payload.length))
    (src dst : Address) (length : UInt16) :
    scratch b header payload src dst length =
      .ok (Checksum.pseudoOctets src dst .tcp length ++ (header ++ payload)) := by
  have hlen : b.length = 12 + (header.length + payload.length) := hb
  have hfront : (b.take 12).length = 12 := by rw [List.length_take]; omega
  have hroom : ((b.drop 12).take header.length).length = header.length := by
    rw [List.length_take, List.length_drop]; omega
  have hrest : ((b.drop 12).drop header.length).length = payload.length := by
    rw [List.length_drop, List.length_drop]; omega
  have hpseudo : Checksum.writePseudoHeader (b.take 12) src dst .tcp length =
      .ok (Checksum.pseudoOctets src dst .tcp length) := by
    have htail : (b.take 12).drop (Checksum.pseudoOctets src dst .tcp length).length = [] :=
      List.drop_of_length_le (Nat.le_of_eq hfront)
    have hfits : (Checksum.pseudoOctets src dst .tcp length).length ≤ (b.take 12).length :=
      Nat.le_of_eq hfront.symm
    have h := Octets.write_append (show ([] : Octets).length = 0 from rfl) hfits
    rw [htail] at h
    simpa [Checksum.writePseudoHeader] using h
  have hsplit : Octets.split b Checksum.pseudoHeaderLen = .ok (b.take 12, b.drop 12) :=
    if_pos (by rw [hb]; exact Nat.le_add_right _ _)
  have hsplit' : Octets.split (b.drop 12) header.length =
      .ok ((b.drop 12).take header.length, (b.drop 12).drop header.length) :=
    if_pos (by rw [List.length_drop]; omega)
  unfold scratch
  rw [hsplit, Except.ok_bind]
  dsimp only
  rw [hpseudo, Except.ok_bind, hsplit', Except.ok_bind]
  dsimp only
  unfold Octets.copy
  rw [if_pos hroom, if_pos hrest]
  rfl

/-- What computing the checksum of a segment in two parts leads to: the answer and the arena. -/
inductive Computed (arena : α) (header payload : Octets) (src dst : Address) :
    Except Error UInt16 → α → Prop
  | tooLarge : Segment.maxLen < header.length + payload.length →
    Computed arena header payload src dst (.error .tooLarge) arena
  | noBuffer {arena' : α} : header.length + payload.length ≤ Segment.maxLen →
    Arena.allocate arena (Checksum.pseudoHeaderLen + (header.length + payload.length)) =
      (none, arena') →
    Computed arena header payload src dst (.error .noMemory) arena'
  | wrongBuffer {arena' : α} {b : Octets} : header.length + payload.length ≤ Segment.maxLen →
    Arena.allocate arena (Checksum.pseudoHeaderLen + (header.length + payload.length)) =
      (some b, arena') →
    b.length ≠ Checksum.pseudoHeaderLen + (header.length + payload.length) →
    Computed arena header payload src dst (.error .noMemory) (Arena.release arena' b)
  /-- The buffer is filled with what the checksum is taken of, and given back. -/
  | done {arena' : α} {b filled : Octets} : header.length + payload.length ≤ Segment.maxLen →
    Arena.allocate arena (Checksum.pseudoHeaderLen + (header.length + payload.length)) =
      (some b, arena') →
    b.length = Checksum.pseudoHeaderLen + (header.length + payload.length) →
    filled = Checksum.pseudoOctets src dst .tcp (UInt16.ofNat (header.length + payload.length)) ++
      (header ++ payload) →
    Computed arena header payload src dst (.ok (~~~Checksum.folded (Checksum.total 0 filled)))
      (Arena.release arena' filled)

/-- The checksum of a segment in two parts of any length is computed, or there is an error. -/
theorem segmentChecksum_computed (arena : α) (header payload : Octets) (src dst : Address) :
    ∃ r arena', Computed arena header payload src dst r arena' ∧
      segmentChecksum arena header payload src dst = .ok (r, arena') := by
  unfold segmentChecksum
  dsimp only
  split
  · rename_i hlong
    exact ⟨_, _, .tooLarge hlong, rfl⟩
  · rename_i hmax
    have hmax := Nat.le_of_not_lt hmax
    split
    · rename_i hb
      exact ⟨_, _, .noBuffer hmax hb, rfl⟩
    · rename_i b arena' hb
      split
      · rename_i hlen
        exact ⟨_, _, .wrongBuffer hmax hb hlen, rfl⟩
      · rename_i hlen
        have hlen := Classical.not_not.mp hlen
        -- The accumulator has room for pseudo header and segment.
        have hroom (length : UInt16) :
            (Checksum.pseudoOctets src dst .tcp length ++ (header ++ payload)).length ≤
              131074 := by
          have hmax : header.length + payload.length ≤ 65535 := hmax
          simp only [List.length_append, Checksum.length_pseudoOctets, Checksum.pseudoHeaderLen]
          omega
        rw [scratch_eq hlen, Except.ok_bind, Checksum.ofOctets_eq (hroom _), Except.ok_bind]
        exact ⟨_, _, .done hmax hb hlen rfl, rfl⟩

/-- A buffer that is granted for the checksum is filled and given back. -/
theorem segmentChecksum_granted {arena arena' : α} {s p : Octets} (h : Header)
    (hp : p.length ≤ Link.maxPayload)
    (hs : Arena.allocate arena (Checksum.pseudoHeaderLen + (Segment.headerLen + p.length)) =
      (some s, arena'))
    (hlen : s.length = Checksum.pseudoHeaderLen + (Segment.headerLen + p.length))
    (src dst : Address) :
    ∃ s', s'.length = s.length ∧ segmentChecksum arena (h.octets 0) p src dst =
      .ok (.ok (h.checksum p src dst), Arena.release arena' s') := by
  obtain ⟨r, arena₁, hc, he⟩ := segmentChecksum_computed arena (h.octets 0) p src dst
  cases hc with
  | tooLarge hlong => exact absurd (Link.fits hp) (Nat.not_le.mpr hlong)
  | noBuffer _ hb => cases hs.symm.trans hb
  | wrongBuffer _ hb hne =>
    cases hs.symm.trans hb
    exact absurd hlen hne
  | @done _ _ filled _ hb _ hfilled =>
    cases hs.symm.trans hb
    refine ⟨filled, ?_, ?_⟩
    · rw [hlen, hfilled]
      simp
    · rw [he, hfilled]
      rfl

/-- The checksum of a segment with a written header is its checksum field, if the arena has a buffer
for it. -/
theorem segmentChecksum_cases (arena : α) (h : Header) {p : Octets}
    (hp : p.length ≤ Link.maxPayload) (src dst : Address) :
    (∃ arena', segmentChecksum arena (h.octets 0) p src dst = .ok (.error .noMemory, arena')) ∨
    ∃ arena', segmentChecksum arena (h.octets 0) p src dst =
      .ok (.ok (h.checksum p src dst), arena') := by
  obtain ⟨r, arena', hc, he⟩ := segmentChecksum_computed arena (h.octets 0) p src dst
  cases hc with
  | tooLarge hlong => exact absurd (Link.fits hp) (Nat.not_le.mpr hlong)
  | noBuffer _ _ => exact .inl ⟨_, he⟩
  | wrongBuffer _ _ _ => exact .inl ⟨_, he⟩
  | done _ _ _ hfilled =>
    subst hfilled
    exact .inr ⟨_, he⟩

end

/-! ## The segment -/

namespace Link

variable {α ν : Type}

/-- The segment could not be built: a buffer was missing or had a wrong length. -/
inductive Unbuilt (l : Link α ν) (c : Connection) (f : Flags) (p : Octets) : Link α ν → Prop
  | noBuffer (arena : α) : Unbuilt l c f p ({ l with arena }.note (.noBuffer (c.nextHeader f p)))
  | wrongBuffer (arena : α) : Unbuilt l c f p { l with arena }
  | noChecksum (arena : α) :
    Unbuilt l c f p ({ l with arena }.note (.noChecksum (c.nextHeader f p) .noMemory))

/-- The network layer does not see a segment that is not built. -/
theorem Unbuilt.network {l l' : Link α ν} {c : Connection} {f : Flags} {p : Octets}
    (h : l.Unbuilt c f p l') : l'.network = l.network := by
  cases h <;> rfl

/-- What becomes of the arena says nothing about the arena before. -/
theorem Unbuilt.of_arena {l l' : Link α ν} {arena : α} {c : Connection} {f : Flags} {p : Octets}
    (h : Unbuilt { l with arena } c f p l') : l.Unbuilt c f p l' := by
  cases h with
  | noBuffer => exact .noBuffer _
  | wrongBuffer => exact .wrongBuffer _
  | noChecksum => exact .noChecksum _

variable [Network ν]

/-- The segment was handed to the network layer, which accepted it or refused it for a reason. -/
inductive Handed (l : Link α ν) (c : Connection) (f : Flags) (p : Octets) :
    Option Refusal → Link α ν → Prop
  | accepted (arena : α) {network : ν} :
    Network.deliver l.network c.tuple.remoteAddr .tcp (c.segment f p) = (.ok (), network) →
    Handed l c f p none
      ({ l with arena, network }.note
        (.sent c.tuple.localAddr c.tuple.remoteAddr (c.nextHeader f p)))
  | refused (arena : α) {network : ν} {r : Refusal} :
    Network.deliver l.network c.tuple.remoteAddr .tcp (c.segment f p) = (.error r, network) →
    Handed l c f p (some r)
      ({ l with arena, network }.note
        (.refused c.tuple.localAddr c.tuple.remoteAddr (c.nextHeader f p) r))

theorem Handed.of_arena {l l' : Link α ν} {arena : α} {c : Connection} {f : Flags} {p : Octets}
    {r : Option Refusal} (h : Handed { l with arena } c f p r l') : l.Handed c f p r l' := by
  cases h with
  | accepted _ hd => exact .accepted _ hd
  | refused _ hd => exact .refused _ hd

/-- The network layer after a hand-over. -/
theorem Handed.network {l l' : Link α ν} {c : Connection} {f : Flags} {p : Octets}
    {r : Option Refusal} (h : l.Handed c f p r l') :
    l'.network = (Network.deliver l.network c.tuple.remoteAddr .tcp (c.segment f p)).2 := by
  cases h with
  | accepted _ h => rw [h]; rfl
  | refused _ h => rw [h]; rfl

/-- What sending leads to: the answer, the record and the link. -/
inductive Sent (l : Link α ν) (c : Connection) (f : Flags) (p : Octets) :
    Except Error Unit → Connection → Link α ν → Prop
  | tooLarge : maxPayload < p.length →
    Sent l c f p (.error .tooLarge) c (l.note (.oversized p.length))
  | unbuilt {l' : Link α ν} : p.length ≤ maxPayload → Unbuilt l c f p l' →
    Sent l c f p (.error .noMemory) c l'
  | handed {r : Option Refusal} {l' : Link α ν} : p.length ≤ maxPayload → Handed l c f p r l' →
    Sent l c f p (Host.answerOf r) (c.advance f p) l'

theorem Sent.fixed {l l' : Link α ν} {c c' : Connection} {f : Flags} {p : Octets}
    {a : Except Error Unit} (h : l.Sent c f p a c' l') : c'.fixed = c.fixed := by
  cases h <;> rfl

variable [Arena α]

theorem handOver_handed (l : Link α ν) (c : Connection) (f : Flags) (p : Octets) :
    ∃ r l', l.Handed c f p r l' ∧
      l.handOver c (c.nextHeader f p) (c.segment f p) = (Host.answerOf r, c.advance f p, l') := by
  unfold handOver
  split
  rename_i answer network hd
  cases answer with
  | ok u => exact ⟨none, _, .accepted _ hd, rfl⟩
  | error r => exact ⟨some r, _, .refused _ hd, rfl⟩

theorem arena_handOver (l : Link α ν) (c : Connection) (h : Header) (b : Octets) :
    (l.handOver c h b).2.2.arena = Arena.release l.arena b := by
  unfold handOver
  split
  rename_i answer network _
  cases answer <;> rfl

/-- Without a checksum a segment is given back. -/
theorem finish_failed {l : Link α ν} {c : Connection} {h : Header} {p b : Octets}
    (hb : b.length = Segment.headerLen + p.length) {e : Error} {arena : α}
    (hsum : segmentChecksum l.arena (h.octets 0) p c.tuple.localAddr c.tuple.remoteAddr =
      .ok (.error e, arena)) :
    l.finish c h p b =
      .ok (.error e, c, ({ l with arena }.note (.noChecksum h e)).release (h.octets 0 ++ p)) := by
  unfold finish
  rw [Segment.assemble_eq _ hb, Except.ok_bind, Octets.split_append (Header.length_octets _ _),
    Except.ok_bind]
  dsimp only
  rw [hsum]
  rfl

/-- With its checksum it is handed over. -/
theorem finish_done {l : Link α ν} {c : Connection} {h : Header} {p b : Octets}
    (hb : b.length = Segment.headerLen + p.length) {sum : UInt16} {arena : α}
    (hsum : segmentChecksum l.arena (h.octets 0) p c.tuple.localAddr c.tuple.remoteAddr =
      .ok (.ok sum, arena)) :
    l.finish c h p b = .ok ({ l with arena }.handOver c h (h.octets sum ++ p)) := by
  unfold finish
  rw [Segment.assemble_eq _ hb, Except.ok_bind, Octets.split_append (Header.length_octets _ _),
    Except.ok_bind]
  dsimp only
  rw [hsum, Except.ok_bind]
  dsimp only
  rw [Segment.setChecksum_octets]
  rfl

/-- A buffer of the right length is filled with the segment and handed over, unless its checksum
cannot be computed. -/
theorem finish_cases (l : Link α ν) (c : Connection) (f : Flags) {p b : Octets}
    (hp : p.length ≤ maxPayload) (hb : b.length = Segment.headerLen + p.length) :
    (∃ l', l.Unbuilt c f p l' ∧
      l.finish c (c.nextHeader f p) p b = .ok (.error .noMemory, c, l')) ∨
    ∃ r l', l.Handed c f p r l' ∧
      l.finish c (c.nextHeader f p) p b = .ok (Host.answerOf r, c.advance f p, l') := by
  obtain ⟨arena, hsum⟩ | ⟨arena, hsum⟩ := segmentChecksum_cases l.arena (c.nextHeader f p) hp
    c.tuple.localAddr c.tuple.remoteAddr
  · refine .inl ⟨_, ?_, finish_failed hb hsum⟩
    exact .noChecksum _
  · obtain ⟨r, l', hl, he⟩ := handOver_handed { l with arena } c f p
    exact .inr ⟨r, l', hl.of_arena, (finish_done hb hsum).trans (congrArg Except.ok he)⟩

/-- A segment is sent in one of the three ways. -/
theorem send_cases (l : Link α ν) (c : Connection) (f : Flags) (p : Octets) :
    ∃ a c' l', l.Sent c f p a c' l' ∧ l.send c f p = .ok (a, c', l') := by
  by_cases hp : maxPayload < p.length
  · exact ⟨_, _, _, .tooLarge hp, if_pos hp⟩
  · have hp' := Nat.le_of_not_lt hp
    unfold send
    rw [if_neg hp]
    dsimp only
    split
    · exact ⟨_, _, _, .unbuilt hp' (.noBuffer _), rfl⟩
    · rename_i b arena _
      split
      · exact ⟨_, _, _, .unbuilt hp' (.wrongBuffer _), rfl⟩
      · rename_i hb
        have hb : b.length = Segment.headerLen + p.length :=
          (Classical.not_not.mp hb).trans (c.bufferLen_nextHeader f hp')
        obtain ⟨l', hl, he⟩ | ⟨r, l', hl, he⟩ := finish_cases { l with arena } c f hp' hb
        · exact ⟨_, _, l', .unbuilt hp' hl.of_arena, he⟩
        · exact ⟨_, _, l', .handed hp' hl.of_arena, he⟩

end Link

end TcpEngine
