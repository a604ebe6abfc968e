import TcpEngine.Proofs.Segment

/-!
# Filled checksums are verified

The checksum of a segment covers a sum of words, of which the checksum field is one
(`Segment.words`, `Segment.words_fill`). The protocol number in the pseudo header keeps the sum from
being 0, and any other sum is folded to ones only if it is a multiple of 65535. The complement in
the field makes it one.

* `Segment.verify_fill_iff`: the words in the field with which a segment passes verification.
* `Segment.verify_withChecksum`: a segment whose checksum was filled in passes verification.
* `Header.withChecksum_octets`: that checksum is the one of `Header.segment`.
* `Header.parse_segment_ends`: a finished segment is accepted between its addresses, with its
  header.
-/

namespace TcpEngine

namespace Segment

/-- The sum of the words that the checksum covers: those of the pseudo header and of the segment. -/
def words (b : Octets) (src dst : Address) : Nat :=
  Checksum.total 0 (Checksum.pseudoOctets src dst .tcp (UInt16.ofNat b.length)) +
    Checksum.total 0 b

/-- The segment `b` with `w` in its checksum field. -/
def fill (b : Octets) (w : UInt16) : Octets := b.take 16 ++ (Octets.ofUInt16 w ++ b.drop 18)

variable {b : Octets}

/-! ## The sum of the words -/

theorem total_pseudoOctets (src dst : Address) (length : UInt16) :
    0 < Checksum.total 0 (Checksum.pseudoOctets src dst .tcp length) ∧
      Checksum.total 0 (Checksum.pseudoOctets src dst .tcp length) ≤ 65535 * 6 := by
  constructor
  · have hprotocol : (6 : UInt8).toNat = 6 := rfl
    simp only [Checksum.pseudoOctets, Address.octets, Protocol.number, Octets.ofUInt16,
      List.cons_append, List.nil_append, Checksum.total, hprotocol]
    omega
  · have h := Checksum.total_le 0 (Checksum.pseudoOctets src dst .tcp length)
    rwa [Checksum.length_pseudoOctets, Nat.zero_add] at h

/-- The words are those of the segment with the pseudo header in front. -/
theorem words_eq_total (b : Octets) (src dst : Address) : words b src dst = Checksum.total 0
    (Checksum.pseudoOctets src dst .tcp (UInt16.ofNat b.length) ++ b) := by
  rw [Checksum.total_append (by simp [Checksum.pseudoHeaderLen]), Checksum.total_eq_add _ b, words]

theorem words_ne_zero (b : Octets) (src dst : Address) : words b src dst ≠ 0 := by
  have h := (total_pseudoOctets src dst (UInt16.ofNat b.length)).1
  unfold words
  omega

/-- The words of a segment fit the accumulator. -/
theorem words_lt (hb : b.length ≤ maxLen) (src dst : Address) : words b src dst < UInt32.size := by
  have hlen : b.length ≤ 65535 := hb
  have hpseudo := (total_pseudoOctets src dst (UInt16.ofNat b.length)).2
  have hle := Checksum.total_le 0 b
  simp only [words, UInt32.size]
  omega

/-- Summing the parts and then their sums is as good as summing all words. -/
theorem sum_eq (hb : b.length ≤ maxLen) (src dst : Address) :
    sum b src dst = .ok (Checksum.folded (words b src dst)) := by
  have hlen : b.length ≤ 65535 := hb
  unfold sum Checksum.ofPseudoHeader
  rw [Checksum.ofOctets_eq (by simp [Checksum.pseudoHeaderLen]), Except.ok_bind,
    Checksum.ofOctets_eq (by omega), Except.ok_bind, Checksum.ofParts_eq (by simp)]
  simp only [List.foldl_cons, List.foldl_nil, Nat.zero_add]
  rw [Checksum.folded_add (words_lt hb src dst)]
  rfl

/-- Only the multiples of 65535 pass, as the sum is not 0. -/
theorem verify_eq (hb : b.length ≤ maxLen) (src dst : Address) :
    verify b src dst = .ok (decide (words b src dst % 65535 = 0)) := by
  have hones := Checksum.folded_eq_ones_iff (words_lt hb src dst)
  have hpos := words_ne_zero b src dst
  unfold verify
  rw [sum_eq hb, Except.ok_bind, Except.pure_eq, Except.ok.injEq, Bool.eq_iff_iff, beq_iff_eq,
    decide_eq_true_iff, hones]
  exact ⟨And.right, fun h => ⟨hpos, h⟩⟩

theorem verify_iff (hb : b.length ≤ maxLen) (src dst : Address) :
    verify b src dst = .ok true ↔ words b src dst % 65535 = 0 := by
  rw [verify_eq hb, Except.ok.injEq, decide_eq_true_iff]

/-- Verification fails if and only if pseudo header and segment do not sum up to ones. -/
theorem verify_eq_false_iff (hb : b.length ≤ maxLen) (src dst : Address) :
    verify b src dst = .ok false ↔ Checksum.ofOctets
      (Checksum.pseudoOctets src dst .tcp (UInt16.ofNat b.length) ++ b) ≠ .ok 0xffff := by
  have hroom : (Checksum.pseudoOctets src dst .tcp (UInt16.ofNat b.length) ++ b).length ≤
      131074 := by
    have hlen : b.length ≤ 65535 := hb
    simp only [List.length_append, Checksum.length_pseudoOctets, Checksum.pseudoHeaderLen]
    omega
  unfold verify
  rw [sum_eq hb, Except.ok_bind, Except.pure_eq, Checksum.ofOctets_eq hroom, ← words_eq_total]
  simp

/-! ## The checksum field -/

theorem setChecksum_eq (hb : headerLen ≤ b.length) (w : UInt16) :
    setChecksum b w = .ok (fill b w) := by
  have hlen : 20 ≤ b.length := hb
  have hfits : 16 + (Octets.ofUInt16 w).length ≤ b.length := by
    rw [Octets.length_ofUInt16]
    omega
  unfold setChecksum Octets.write fill
  rw [if_pos hfits, List.append_assoc]
  rfl

theorem length_fill (hb : headerLen ≤ b.length) (w : UInt16) : (fill b w).length = b.length := by
  have hlen : 20 ≤ b.length := hb
  simp only [fill, List.length_append, List.length_take, List.length_drop,
    Octets.length_ofUInt16]
  omega

theorem fill_fill (hb : headerLen ≤ b.length) (v w : UInt16) : fill (fill b v) w = fill b w := by
  have hlen : (b.take 16).length = 16 := by
    have : 20 ≤ b.length := hb
    rw [List.length_take]
    omega
  have hfront : (fill b v).take 16 = b.take 16 := List.take_left' hlen
  have hrest : (fill b v).drop 18 = b.drop 18 := by
    unfold fill
    rw [← List.append_assoc]
    exact List.drop_left' (by rw [List.length_append, hlen]; rfl)
  rw [fill, hfront, hrest, fill]

theorem total_ofUInt16 (w : UInt16) : Checksum.total 0 (Octets.ofUInt16 w) = w.toNat := by
  have hw := w.toNat_lt
  simp only [Octets.ofUInt16, Checksum.total, UInt8.toNat_ofNat']
  omega

/-- The checksum field counts as a word of its own. -/
theorem words_fill (hb : headerLen ≤ b.length) (w : UInt16) (src dst : Address) :
    words (fill b w) src dst = words (fill b 0) src dst + w.toNat := by
  have heven : (b.take 16).length % 2 = 0 := by
    have : 20 ≤ b.length := hb
    rw [List.length_take]
    omega
  have htotal (v : UInt16) : Checksum.total 0 (fill b v) =
      Checksum.total 0 (b.take 16) + v.toNat + Checksum.total 0 (b.drop 18) := by
    unfold fill
    rw [Checksum.total_append heven, Checksum.total_append (by simp),
      Checksum.total_eq_add _ (b.drop 18), Checksum.total_eq_add _ (Octets.ofUInt16 v),
      total_ofUInt16]
  have hzero : (0 : UInt16).toNat = 0 := rfl
  unfold words
  rw [length_fill hb, length_fill hb, htotal, htotal, hzero]
  omega

/-- The word that the checksum field is filled with: the complement of the sum of all others. -/
def filling (b : Octets) (src dst : Address) : UInt16 :=
  ~~~Checksum.folded (words (fill b 0) src dst)

theorem withChecksum_eq (hmin : headerLen ≤ b.length) (hmax : b.length ≤ maxLen)
    (src dst : Address) : withChecksum b src dst = .ok (fill b (filling b src dst)) := by
  have hlen := length_fill hmin 0
  unfold withChecksum
  rw [setChecksum_eq hmin, Except.ok_bind, sum_eq (by rwa [hlen]), Except.ok_bind,
    setChecksum_eq (by rwa [hlen]), fill_fill hmin]
  rfl

/-- The words are not all zero, so their sum is folded to a number from 1 to 65535, of which the
filling is the distance to 65535. -/
theorem toNat_filling (hmin : headerLen ≤ b.length) (hmax : b.length ≤ maxLen)
    (src dst : Address) :
    (filling b src dst).toNat = 65534 - (words (fill b 0) src dst - 1) % 65535 := by
  have hlt := words_lt (b := fill b 0) (by rwa [length_fill hmin]) src dst
  have hcomplement : (filling b src dst).toNat =
      65535 - (Checksum.folded (words (fill b 0) src dst)).toNat := UInt16.toNat_not _
  rw [hcomplement, Checksum.toNat_folded hlt, if_neg (words_ne_zero _ _ _)]
  omega

theorem filling_ne_ones (hmin : headerLen ≤ b.length) (hmax : b.length ≤ maxLen)
    (src dst : Address) : filling b src dst ≠ 0xffff := by
  intro h
  have hones : (filling b src dst).toNat = 65535 := congrArg UInt16.toNat h
  rw [toNat_filling hmin hmax] at hones
  omega

/-- Zero has two representations in a field, and the filling is never the second of them. -/
theorem verify_fill_iff (hmin : headerLen ≤ b.length) (hmax : b.length ≤ maxLen) (w : UInt16)
    (src dst : Address) : verify (fill b w) src dst = .ok true ↔
      w = filling b src dst ∨ (filling b src dst = 0 ∧ w = 0xffff) := by
  have hbound : (fill b w).length ≤ maxLen := by rwa [length_fill hmin]
  have hfilling := toNat_filling hmin hmax src dst
  have hpos := words_ne_zero (fill b 0) src dst
  have hw := w.toNat_lt
  have hones : (0xffff : UInt16).toNat = 65535 := rfl
  have hzero : (0 : UInt16).toNat = 0 := rfl
  rw [verify_iff hbound, words_fill hmin, ← UInt16.toNat_inj, ← UInt16.toNat_inj,
    ← UInt16.toNat_inj, hfilling, hones, hzero]
  omega

/-- A segment whose checksum was filled in passes verification. -/
theorem verify_withChecksum (hmin : headerLen ≤ b.length) (hmax : b.length ≤ maxLen)
    (src dst : Address) :
    ∃ b', withChecksum b src dst = .ok b' ∧ verify b' src dst = .ok true :=
  ⟨_, withChecksum_eq hmin hmax src dst, (verify_fill_iff hmin hmax _ src dst).mpr (.inl rfl)⟩

end Segment

namespace Header

theorem fill_octets (h : Header) (old new : UInt16) (p : Octets) :
    Segment.fill (h.octets old ++ p) new = h.octets new ++ p := by
  have hmin : Segment.headerLen ≤ (h.octets old ++ p).length := by simp
  have hset := Segment.setChecksum_eq hmin new
  rw [Segment.setChecksum_octets] at hset
  exact (Except.ok.inj hset).symm

theorem filling_octets (h : Header) (old : UInt16) (p : Octets) (src dst : Address) :
    Segment.filling (h.octets old ++ p) src dst = h.checksum p src dst := by
  unfold Segment.filling
  rw [fill_octets, Segment.words_eq_total, List.length_append, length_octets]
  rfl

/-- Filling in the checksum of a segment gives the finished segment. -/
theorem withChecksum_octets (h : Header) (old : UInt16) {p : Octets}
    (hp : Segment.headerLen + p.length ≤ Segment.maxLen) (src dst : Address) :
    Segment.withChecksum (h.octets old ++ p) src dst = .ok (h.segment p src dst) := by
  have hlen : (h.octets old ++ p).length = Segment.headerLen + p.length := by simp
  rw [Segment.withChecksum_eq (by omega) (by rwa [hlen]), filling_octets, fill_octets]
  rfl

/-- The field of a segment that passes the verification is that of the finished segment, or it is
the second representation of zero. -/
theorem verify_octets_iff (h : Header) (w : UInt16) {p : Octets}
    (hp : Segment.headerLen + p.length ≤ Segment.maxLen) (src dst : Address) :
    Segment.verify (h.octets w ++ p) src dst = .ok true ↔
      w = h.checksum p src dst ∨ (h.checksum p src dst = 0 ∧ w = 0xffff) := by
  have hlen : (h.octets 0 ++ p).length = Segment.headerLen + p.length := by simp
  have hverify := Segment.verify_fill_iff (b := h.octets 0 ++ p) (by omega) (by rwa [hlen]) w src dst
  rwa [fill_octets, filling_octets] at hverify

theorem checksum_ne_ones (h : Header) {p : Octets}
    (hp : Segment.headerLen + p.length ≤ Segment.maxLen) (src dst : Address) :
    h.checksum p src dst ≠ 0xffff := by
  have hlen : (h.octets 0 ++ p).length = Segment.headerLen + p.length := by simp
  have hones := Segment.filling_ne_ones (b := h.octets 0 ++ p) (by omega) (by rwa [hlen]) src dst
  rwa [filling_octets] at hones

/-- A segment that passes the verification passes it under every policy. -/
theorem verified_of_verify {b : Octets} {src dst : Address}
    (h : Segment.verify b src dst = .ok true) (policy : ChecksumPolicy) :
    verified b (policy.ends src dst) = .ok true := by
  cases policy with
  | verify => exact h
  | ignore => rfl

/-- A finished segment is accepted between its addresses, and where nothing is verified. -/
theorem parse_segment_ends (h : Header) {p : Octets}
    (hp : Segment.headerLen + p.length ≤ Segment.maxLen) (policy : ChecksumPolicy)
    (src dst : Address) : parse (h.segment p src dst) (policy.ends src dst) =
      .ok (.ok { h with payloadLen := UInt16.ofNat p.length }) := by
  have hlen : (h.segment p src dst).length = Segment.headerLen + p.length := by simp [segment]
  have hv := (h.verify_octets_iff (h.checksum p src dst) hp src dst).mpr (.inl rfl)
  refine parse_eq_ok_iff.mpr ⟨⟨?_, ?_⟩, verified_of_verify hv policy, h.read_segment p src dst⟩
  · rw [hlen]
    exact Nat.le_add_right ..
  · rwa [hlen]

end Header

end TcpEngine
