import TcpEngine.Proofs.Verification

/-!
# Encoding and decoding headers

A header is read from the octets that it is written into. The other way round, the octets of a
segment are those of the header that is read from them, but for what the header does not tell: the
reserved octet, the checksum and the urgent pointer (`Header.image`, `Header.eq_image_of_read`).

* `Header.parse_written`: parsing undoes writing, whatever was in the buffer before.
* `Header.reproduced_iff_canonical`: writing undoes parsing exactly for the segments that have zeros
  where the header does not tell, and the first of the two representations of zero as checksum.
-/

namespace TcpEngine

namespace Octets

/-! ## Words -/

theorem ofUInt16_word16 (x y : UInt8) : ofUInt16 (word16 x y) = [x, y] := by
  have hx := x.toNat_lt
  have hy := y.toNat_lt
  have hword := toNat_word16 x y
  have hhigh : UInt8.ofNat ((word16 x y).toNat / 256) = x := by
    apply UInt8.toNat_inj.mp
    rw [hword, UInt8.toNat_ofNat']
    omega
  have hlow : UInt8.ofNat (word16 x y).toNat = y := by
    apply UInt8.toNat_inj.mp
    rw [hword, UInt8.toNat_ofNat']
    omega
  unfold ofUInt16
  rw [hhigh, hlow]

theorem ofUInt32_word32 (w x y z : UInt8) : ofUInt32 (word32 w x y z) = [w, x, y, z] := by
  have hhigh := (word16 w x).toNat_lt
  have hlow := (word16 y z).toNat_lt
  have hword : (word32 w x y z).toNat = 65536 * (word16 w x).toNat + (word16 y z).toNat := by
    unfold word32 join32
    rw [UInt32.toNat_ofNat', Nat.mod_eq_of_lt (by omega)]
  have h₁ : UInt16.ofNat ((word32 w x y z).toNat / 65536) = word16 w x := by
    apply UInt16.toNat_inj.mp
    rw [hword, UInt16.toNat_ofNat']
    omega
  have h₂ : UInt16.ofNat (word32 w x y z).toNat = word16 y z := by
    apply UInt16.toNat_inj.mp
    rw [hword, UInt16.toNat_ofNat']
    omega
  unfold ofUInt32
  rw [h₁, h₂, ofUInt16_word16, ofUInt16_word16]
  rfl

theorem ofUInt16_inj {v w : UInt16} : ofUInt16 v = ofUInt16 w ↔ v = w := by
  refine ⟨fun h => ?_, congrArg ofUInt16⟩
  obtain ⟨hhigh, hlow⟩ : UInt8.ofNat (v.toNat / 256) = UInt8.ofNat (w.toNat / 256) ∧
      UInt8.ofNat v.toNat = UInt8.ofNat w.toNat := by simpa [ofUInt16] using h
  rw [← word16_octets v, ← word16_octets w, hhigh, hlow]

/-! What was read is what lies there. -/

theorem drop_of_read8 {b : Octets} {i : Nat} {x : UInt8} (h : read8 b i = .ok x) :
    b.drop i = [x] ++ b.drop (i + 1) := by
  unfold read8 at h
  split at h
  · rename_i y r hd
    cases h
    rw [← List.drop_drop, hd]
    rfl
  · cases h

theorem drop_of_read16 {b : Octets} {i : Nat} {w : UInt16} (h : read16 b i = .ok w) :
    b.drop i = ofUInt16 w ++ b.drop (i + 2) := by
  unfold read16 at h
  split at h
  · rename_i x y r hd
    cases h
    rw [← List.drop_drop, hd, ofUInt16_word16]
    rfl
  · cases h

theorem drop_of_read32 {b : Octets} {i : Nat} {w : UInt32} (h : read32 b i = .ok w) :
    b.drop i = ofUInt32 w ++ b.drop (i + 4) := by
  unfold read32 at h
  split at h
  · rename_i w x y z r hd
    cases h
    rw [← List.drop_drop, hd, ofUInt32_word32]
    rfl
  · cases h

end Octets

/-! ## Parsing what was written -/

namespace Segment

/-- The checksum of more octets than a segment can have is computed as well, as long as the
accumulator holds their sum. -/
theorem exists_withChecksum {b : Octets} (hmin : headerLen ≤ b.length) (hmax : b.length ≤ 131074)
    (src dst : Address) :
    ∃ b', withChecksum b src dst = .ok b' ∧ b'.length = b.length := by
  have hlen := length_fill hmin
  obtain ⟨s, hs⟩ : ∃ s, sum (fill b 0) src dst = .ok s := by
    unfold sum Checksum.ofPseudoHeader
    rw [Checksum.ofOctets_eq (by simp [Checksum.pseudoHeaderLen]),
      Checksum.ofOctets_eq (by rwa [hlen])]
    exact ⟨_, Checksum.ofParts_eq (by simp)⟩
  refine ⟨fill b (~~~s), ?_, hlen _⟩
  unfold withChecksum
  rw [setChecksum_eq hmin, Except.ok_bind, hs, Except.ok_bind, setChecksum_eq (by rwa [hlen]),
    fill_fill hmin]

end Segment

namespace Header

theorem parse_tooLong {b : Octets} (hb : Segment.maxLen < b.length)
    (ends : Option (Address × Address)) : parse b ends = .ok (.error .malformed) := by
  have hmin : ¬b.length < Segment.headerLen :=
    Nat.not_lt.mpr (Nat.le_trans (by decide) (Nat.le_of_lt hb))
  unfold parse
  rw [if_neg hmin, if_pos hb]

theorem parse_octets (h : Header) (checksum : UInt16) {p : Octets}
    (hp : Segment.headerLen + p.length ≤ Segment.maxLen) :
    parse (h.octets checksum ++ p) none =
      .ok (.ok { h with payloadLen := UInt16.ofNat p.length }) := by
  have hlen : (h.octets checksum ++ p).length = Segment.headerLen + p.length := by simp
  exact parse_eq_ok_iff.mpr ⟨⟨by omega, by rwa [hlen]⟩, rfl, h.read_octets checksum p⟩

/-- What is behind a header in a buffer of the length of a segment fits the segment. -/
theorem fits_drop {b : Octets} (hmin : Segment.headerLen ≤ b.length)
    (hmax : b.length ≤ Segment.maxLen) :
    Segment.headerLen + (b.drop Segment.headerLen).length ≤ Segment.maxLen := by
  rwa [List.length_drop, Nat.add_sub_cancel' hmin]

/-- With the checksum filled in, a header in front of a payload of its own length comes back, unless
the segment is too long. -/
theorem parse_filled (r : Header) {p : Octets} (hp : p.length = r.payloadLen.toNat)
    (src dst : Address) :
    ∃ b', Segment.withChecksum (r.octets 0 ++ p) src dst = .ok b' ∧ ∀ policy : ChecksumPolicy,
      (parse b' (policy.ends src dst) = .ok (.ok r) ↔ r.payloadLen.toNat ≤ 65515) ∧
      (65515 < r.payloadLen.toNat →
        parse b' (policy.ends src dst) = .ok (.error .malformed)) := by
  have hbound := r.payloadLen.toNat_lt
  have hlen : (r.octets 0 ++ p).length = 20 + r.payloadLen.toNat := by
    rw [List.length_append, hp]
    rfl
  obtain hshort | hlong := Nat.lt_or_ge 65515 r.payloadLen.toNat |>.symm
  · have hfits : Segment.headerLen + p.length ≤ Segment.maxLen := by
      simp only [Segment.headerLen, Segment.maxLen]
      omega
    refine ⟨_, r.withChecksum_octets 0 hfits src dst, fun policy => ?_⟩
    have hparse := r.parse_segment_ends hfits policy src dst
    rw [hp, UInt16.ofNat_toNat] at hparse
    exact ⟨iff_of_true hparse hshort, fun hlong => absurd hshort (Nat.not_le.mpr hlong)⟩
  · -- The checksum of such a segment can be computed still.
    obtain ⟨b', hfill, hlen'⟩ := Segment.exists_withChecksum (b := r.octets 0 ++ p)
      (by rw [hlen]; exact Nat.le_add_right ..) (by omega) src dst
    refine ⟨b', hfill, fun policy => ?_⟩
    have hparse := parse_tooLong (b := b') (by simp only [Segment.maxLen]; omega)
      (policy.ends src dst)
    exact ⟨iff_of_false (by rw [hparse]; simp) (Nat.not_le.mpr hlong), fun _ => hparse⟩

/-- A header is written over the first twenty octets of a buffer, whatever they were, and nothing
behind them changes. If the buffer is no longer than a segment can be, the header is read again, with
the length of what stands behind it, also when the checksum is filled in and verified. So a header
with the length of its own payload comes back as it was, unless the segment is too long; such a
segment is rejected. -/
theorem parse_written (r : Header) : ∃ front : Octets, front.length = 20 ∧
    ∀ b : Octets, 20 ≤ b.length → r.write b = .ok (front ++ b.drop 20) ∧
      (b.length ≤ 65535 → ∃ n : UInt16, n.toNat = b.length - 20 ∧
        parse (front ++ b.drop 20) none = .ok (.ok { r with payloadLen := n }) ∧
        ∀ src dst, ∃ b', Segment.withChecksum (front ++ b.drop 20) src dst = .ok b' ∧
          ∀ policy : ChecksumPolicy,
            parse b' (policy.ends src dst) = .ok (.ok { r with payloadLen := n })) ∧
      (b.length = r.bufferLen → ∀ src dst, ∃ b',
        Segment.withChecksum (front ++ b.drop 20) src dst = .ok b' ∧
          ∀ policy : ChecksumPolicy,
            (parse b' (policy.ends src dst) = .ok (.ok r) ↔ r.payloadLen.toNat ≤ 65515) ∧
            (65515 < r.payloadLen.toNat →
              parse b' (policy.ends src dst) = .ok (.error .malformed))) := by
  refine ⟨r.octets 0, rfl, fun b hb => ⟨r.write_eq hb, fun hmax => ?_, fun hlen => ?_⟩⟩
  · have hfits := fits_drop hb hmax
    have hdrop : (b.drop 20).length = b.length - 20 := List.length_drop
    refine ⟨UInt16.ofNat (b.drop 20).length, ?_, r.parse_octets 0 hfits, fun src dst => ?_⟩
    · rw [UInt16.toNat_ofNat', Nat.mod_eq_of_lt (by omega), hdrop]
    · exact ⟨_, r.withChecksum_octets 0 hfits src dst,
        fun policy => r.parse_segment_ends hfits policy src dst⟩
  · have hpayload : (b.drop 20).length = r.payloadLen.toNat := by
      rw [List.length_drop, hlen]
      exact Nat.add_sub_cancel_left ..
    exact r.parse_filled hpayload

/-- A header with the largest payload length that a segment has room for is written over octets of
all kinds, and comes back. -/
theorem parse_written_largest : ∃ (r : Header) (b front b' : Octets),
    r = ⟨5000, 80, ⟨4294967295⟩, ⟨7⟩, .SYN ||| .FIN, 0, 65515⟩ ∧ b = List.replicate 65535 0xa5 ∧
    20 ≤ b.length ∧ b.length ≤ 65535 ∧ b.length = r.bufferLen ∧
    r.write b = .ok (front ++ b.drop 20) ∧
    Segment.withChecksum (front ++ b.drop 20) ⟨10, 0, 0, 1⟩ ⟨10, 0, 0, 2⟩ = .ok b' ∧
    parse b' (some (⟨10, 0, 0, 1⟩, ⟨10, 0, 0, 2⟩)) = .ok (.ok r) := by
  obtain ⟨b, hb⟩ : ∃ b : Octets, b = List.replicate 65535 0xa5 := ⟨_, rfl⟩
  have hlen : b.length = 65535 := by rw [hb, List.length_replicate]
  obtain ⟨front, -, hwritten⟩ :=
    parse_written ⟨5000, 80, ⟨4294967295⟩, ⟨7⟩, .SYN ||| .FIN, 0, 65515⟩
  obtain ⟨hwrite, -, hwhole⟩ := hwritten b (by omega)
  obtain ⟨b', hfill, hparse⟩ := hwhole hlen ⟨10, 0, 0, 1⟩ ⟨10, 0, 0, 2⟩
  exact ⟨_, b, front, b', rfl, hb, by omega, by omega, hlen, hwrite, hfill,
    (hparse .verify).1.mpr (by decide)⟩

/-! ## Writing what was parsed -/

/-- The twenty octets of a header with any reserved octet, checksum and urgent pointer. -/
def image (h : Header) (reserved : UInt8) (checksum urgent : UInt16) : Octets :=
  Octets.ofUInt16 h.srcPort ++ (Octets.ofUInt16 h.dstPort ++ (Octets.ofUInt32 h.seqNumber.value ++
    (Octets.ofUInt32 h.ackNumber.value ++ ([h.flags.bits] ++ ([reserved] ++
      (Octets.ofUInt16 h.window ++ (Octets.ofUInt16 checksum ++ Octets.ofUInt16 urgent)))))))

@[simp] theorem length_image (h : Header) (reserved : UInt8) (checksum urgent : UInt16) :
    (h.image reserved checksum urgent).length = Segment.headerLen := rfl

theorem image_inj {h : Header} {x y : UInt8} {c d u v : UInt16} :
    h.image x c u = h.image y d v ↔ x = y ∧ c = d ∧ u = v := by
  refine ⟨fun he => ?_, fun ⟨hx, hc, hu⟩ => by rw [hx, hc, hu]⟩
  unfold image at he
  simp only [List.append_cancel_left_eq] at he
  obtain ⟨hx, he⟩ := List.append_inj he rfl
  obtain ⟨hc, hu⟩ := List.append_inj (List.append_cancel_left he) rfl
  exact ⟨List.head_eq_of_cons_eq hx, Octets.ofUInt16_inj.mp hc, Octets.ofUInt16_inj.mp hu⟩

theorem checksum_image (h : Header) (reserved : UInt8) (checksum urgent : UInt16) (p : Octets) :
    Segment.checksum (h.image reserved checksum urgent ++ p) = .ok checksum :=
  congrArg Except.ok (Octets.word16_octets checksum)

theorem urgent_image (h : Header) (reserved : UInt8) (checksum urgent : UInt16) (p : Octets) :
    (h.image reserved checksum urgent ++ p)[18]? = some 0 ∧
      (h.image reserved checksum urgent ++ p)[19]? = some 0 ↔ urgent = 0 := by
  have hhigh : (h.image reserved checksum urgent ++ p)[18]? =
      some (UInt8.ofNat (urgent.toNat / 256)) := rfl
  have hlow : (h.image reserved checksum urgent ++ p)[19]? = some (UInt8.ofNat urgent.toNat) := rfl
  have hzero : Octets.ofUInt16 0 = [0, 0] := rfl
  rw [hhigh, hlow, ← Octets.ofUInt16_inj, hzero, Octets.ofUInt16]
  simp

/-- The octets of a segment are those of its header, with three fields that the header does not
tell. -/
theorem eq_image_of_read {b : Octets} {r : Header} (hb : Segment.headerLen ≤ b.length)
    (h : read b = .ok r) : ∃ reserved checksum urgent,
      b = r.image reserved checksum urgent ++ b.drop Segment.headerLen := by
  have hlen : 20 ≤ b.length := hb
  obtain ⟨reserved, hreserved⟩ := Octets.exists_read8 (b := b) (i := 13) (by omega)
  obtain ⟨checksum, hchecksum⟩ := Octets.exists_read16 (b := b) (i := 16) (by omega)
  obtain ⟨urgent, hurgent⟩ := Octets.exists_read16 (b := b) (i := 18) (by omega)
  refine ⟨reserved, checksum, urgent, ?_⟩
  unfold read at h
  obtain ⟨srcPort, hsrc, h⟩ := Except.bind_eq_ok.mp h
  obtain ⟨dstPort, hdst, h⟩ := Except.bind_eq_ok.mp h
  obtain ⟨_, hseq, h⟩ := Except.bind_eq_ok.mp h
  obtain ⟨_, hack, h⟩ := Except.bind_eq_ok.mp h
  obtain ⟨_, hflags, h⟩ := Except.bind_eq_ok.mp h
  obtain ⟨window, hwindow, h⟩ := Except.bind_eq_ok.mp h
  obtain ⟨payload, -, h⟩ := Except.bind_eq_ok.mp h
  cases h
  obtain ⟨seq, hseq', rfl⟩ := Except.map_eq_ok.mp hseq
  obtain ⟨ack, hack', rfl⟩ := Except.map_eq_ok.mp hack
  obtain ⟨bits, hflags', rfl⟩ := Except.map_eq_ok.mp hflags
  -- Each field starts where the one before it ends.
  have h₀ : b = Octets.ofUInt16 srcPort ++ b.drop 2 := Octets.drop_of_read16 hsrc
  have h₂ : b.drop 2 = Octets.ofUInt16 dstPort ++ b.drop 4 := Octets.drop_of_read16 hdst
  have h₄ : b.drop 4 = Octets.ofUInt32 seq ++ b.drop 8 := Octets.drop_of_read32 hseq'
  have h₈ : b.drop 8 = Octets.ofUInt32 ack ++ b.drop 12 := Octets.drop_of_read32 hack'
  have h₁₂ : b.drop 12 = [bits] ++ b.drop 13 := Octets.drop_of_read8 hflags'
  have h₁₃ : b.drop 13 = [reserved] ++ b.drop 14 := Octets.drop_of_read8 hreserved
  have h₁₄ : b.drop 14 = Octets.ofUInt16 window ++ b.drop 16 := Octets.drop_of_read16 hwindow
  have h₁₆ : b.drop 16 = Octets.ofUInt16 checksum ++ b.drop 18 := Octets.drop_of_read16 hchecksum
  have h₁₈ : b.drop 18 = Octets.ofUInt16 urgent ++ b.drop 20 := Octets.drop_of_read16 hurgent
  simp only [image, List.append_assoc, Segment.headerLen]
  rw [← h₁₈, ← h₁₆, ← h₁₄, ← h₁₃, ← h₁₂, ← h₈, ← h₄, ← h₂, ← h₀]

/-- The checksum of a segment that passes the verification is the one that is filled in, unless it
is the second representation of zero. -/
theorem checksum_eq_iff {h : Header} {w : UInt16} {p : Octets} {src dst : Address}
    (hp : Segment.headerLen + p.length ≤ Segment.maxLen)
    (hv : Segment.verify (h.octets w ++ p) src dst = .ok true) :
    h.checksum p src dst = w ↔ w ≠ 0xffff := by
  constructor
  · rintro rfl
    exact h.checksum_ne_ones hp src dst
  · intro hw
    obtain rfl | ⟨-, hones⟩ := (h.verify_octets_iff w hp src dst).mp hv
    · rfl
    · exact absurd hones hw

/-- A segment that passes the verification is the finished segment with its header if and only if
the header tells all of it and its checksum is not the second representation of zero. -/
theorem segment_eq_image_iff {h : Header} {reserved : UInt8} {checksum urgent : UInt16}
    {p : Octets} {src dst : Address} (hp : Segment.headerLen + p.length ≤ Segment.maxLen)
    (hv : Segment.verify (h.image reserved checksum urgent ++ p) src dst = .ok true) :
    h.segment p src dst = h.image reserved checksum urgent ++ p ↔
      reserved = 0 ∧ urgent = 0 ∧ checksum ≠ 0xffff := by
  have hsegment : h.segment p src dst = h.image 0 (h.checksum p src dst) 0 ++ p := rfl
  rw [hsegment, List.append_left_inj, image_inj]
  constructor
  · rintro ⟨rfl, hw, rfl⟩
    exact ⟨rfl, rfl, (checksum_eq_iff hp hv).mp hw⟩
  · rintro ⟨rfl, rfl, hw⟩
    exact ⟨rfl, (checksum_eq_iff hp hv).mpr hw, rfl⟩

/-- An accepted segment comes back when its header is written into any buffer of its length, its
payload is copied behind that and the checksum is filled in, if and only if its reserved octet and
its urgent pointer are zero and its checksum is not the second representation of zero. -/
theorem reproduced_iff_canonical {b : Octets} {src dst : Address} {r : Header}
    (h : parse b (some (src, dst)) = .ok (.ok r)) {buffer : Octets}
    (hbuffer : buffer.length = b.length) :
    ∃ payload written filled b', Segment.payload b = .ok payload ∧ r.write buffer = .ok written ∧
      Segment.setPayload written payload = .ok filled ∧
      Segment.withChecksum filled src dst = .ok b' ∧
      (b' = b ↔ b[13]? = some 0 ∧ (b[18]? = some 0 ∧ b[19]? = some 0) ∧
        Segment.checksum b ≠ .ok 0xffff) := by
  obtain ⟨⟨hmin, hmax⟩, hv, hr⟩ := parse_eq_ok_iff.mp h
  obtain ⟨reserved, checksum, urgent, hb⟩ := eq_image_of_read hmin hr
  obtain ⟨p, hp⟩ : ∃ p : Octets, p = b.drop Segment.headerLen := ⟨_, rfl⟩
  have hfits := fits_drop hmin hmax
  rw [← hp] at hb hfits
  have hlen : buffer.length = Segment.headerLen + p.length := by rw [hbuffer, hb]; simp
  have hpayload : Segment.payload b = .ok p := by
    unfold Segment.payload
    rw [hb, Octets.split_append (length_image ..)]
    rfl
  obtain ⟨written, hwrite, hcopy⟩ := Except.bind_eq_ok.mp (Segment.assemble_eq r hlen)
  refine ⟨p, written, _, _, hpayload, hwrite, hcopy, r.withChecksum_octets 0 hfits src dst, ?_⟩
  have hreserved : (r.image reserved checksum urgent ++ p)[13]? = some reserved := rfl
  rw [hb] at hv ⊢
  rw [hreserved, urgent_image, checksum_image, segment_eq_image_iff hfits hv]
  simp

/-- The words of a segment sum up to ones without its checksum. With ones in the field it is
accepted, and comes back with zeros there. -/
theorem reproduced_iff_canonical_zero : ∃ (r : Header) (b buffer written filled b' : Octets),
    r = ⟨5000, 80, {}, {}, .ACK, 51210, 0⟩ ∧ b = r.octets 0xffff ∧
    buffer = List.replicate 20 0xa5 ∧
    parse b (some (⟨10, 0, 0, 1⟩, ⟨10, 0, 0, 2⟩)) = .ok (.ok r) ∧ buffer.length = b.length ∧
    r.write buffer = .ok written ∧ Segment.setPayload written [] = .ok filled ∧
    Segment.withChecksum filled ⟨10, 0, 0, 1⟩ ⟨10, 0, 0, 2⟩ = .ok b' ∧ b' ≠ b ∧
    b' = r.octets 0 := by
  have hr : parse (octets ⟨5000, 80, {}, {}, .ACK, 51210, 0⟩ 0xffff)
      (some (⟨10, 0, 0, 1⟩, ⟨10, 0, 0, 2⟩)) = .ok (.ok ⟨5000, 80, {}, {}, .ACK, 51210, 0⟩) := rfl
  have hlen : (List.replicate 20 0xa5 : Octets).length =
      (octets ⟨5000, 80, {}, {}, .ACK, 51210, 0⟩ 0xffff).length := rfl
  obtain ⟨payload, written, filled, b', hpayload, hwrite, hcopy, hfill, hiff⟩ :=
    reproduced_iff_canonical hr hlen
  cases hpayload
  refine ⟨_, _, _, written, filled, b', rfl, rfl, rfl, hr, hlen, hwrite, hcopy, hfill, ?_, ?_⟩
  · exact fun hb => (hiff.mp hb).2.2 rfl
  · cases hwrite
    cases hcopy
    cases hfill
    rfl

end Header

end TcpEngine
