import TcpEngine.Proofs.Checksum
import TcpEngine.Segment.Header

/-!
# Segments as octets

A buffer into which a header was written starts with the twenty octets `Header.octets`, whatever
was in it before (`Header.write_eq`), and reading them gives the header back
(`Header.read_octets`). `Header.segment` is the finished segment with its checksum.

* `Header.parse_ok`: parsing any string of octets gives a header or a rejection, and never faults.
* `Header.parse_eq_ok_iff`, `Header.parse_eq_error_iff`: when a segment is accepted, and what is the
  matter with one that is rejected.
-/

namespace TcpEngine

namespace Octets

/-! ## Words -/

theorem toNat_word16 (x y : UInt8) : (word16 x y).toNat = 256 * x.toNat + y.toNat := by
  have hx := x.toNat_lt
  have hy := y.toNat_lt
  unfold word16
  rw [UInt16.toNat_ofNat', Nat.mod_eq_of_lt (by omega)]

theorem word16_inj {x y x' y' : UInt8} : word16 x y = word16 x' y' ↔ x = x' ∧ y = y' := by
  have hy := y.toNat_lt
  have hy' := y'.toNat_lt
  rw [← UInt16.toNat_inj, ← UInt8.toNat_inj, ← UInt8.toNat_inj, toNat_word16, toNat_word16]
  omega

theorem word16_octets (w : UInt16) :
    word16 (UInt8.ofNat (w.toNat / 256)) (UInt8.ofNat w.toNat) = w := by
  have := w.toNat_lt
  apply UInt16.toNat_inj.mp
  simp only [word16, UInt8.toNat_ofNat', UInt16.toNat_ofNat']
  omega

theorem word32_octets (w : UInt32) :
    word32 (UInt8.ofNat ((UInt16.ofNat (w.toNat / 65536)).toNat / 256))
      (UInt8.ofNat (UInt16.ofNat (w.toNat / 65536)).toNat)
      (UInt8.ofNat ((UInt16.ofNat w.toNat).toNat / 256))
      (UInt8.ofNat (UInt16.ofNat w.toNat).toNat) = w := by
  have := w.toNat_lt
  unfold word32
  rw [word16_octets, word16_octets]
  apply UInt32.toNat_inj.mp
  simp only [join32, UInt16.toNat_ofNat', UInt32.toNat_ofNat']
  omega

@[simp] theorem length_ofUInt16 (w : UInt16) : (ofUInt16 w).length = 2 := rfl

@[simp] theorem length_ofUInt32 (w : UInt32) : (ofUInt32 w).length = 4 := rfl

/-! ## Access within the string -/

theorem exists_read8 {b : Octets} {i : Nat} (h : i < b.length) : ∃ x, read8 b i = .ok x := by
  unfold read8
  rw [List.drop_eq_getElem_cons h]
  exact ⟨_, rfl⟩

theorem exists_read16 {b : Octets} {i : Nat} (h : i + 1 < b.length) :
    ∃ w, read16 b i = .ok w := by
  unfold read16
  rw [List.drop_eq_getElem_cons (by omega), List.drop_eq_getElem_cons h]
  exact ⟨_, rfl⟩

theorem exists_read32 {b : Octets} {i : Nat} (h : i + 3 < b.length) :
    ∃ w, read32 b i = .ok w := by
  unfold read32
  rw [List.drop_eq_getElem_cons (by omega), List.drop_eq_getElem_cons (by omega),
    List.drop_eq_getElem_cons (by omega), List.drop_eq_getElem_cons h]
  exact ⟨_, rfl⟩

/-! What lies at a position is read there. -/

theorem read8_of_drop {b r : Octets} {i : Nat} {x : UInt8} (h : b.drop i = x :: r) :
    read8 b i = .ok x := by
  rw [read8, h]

theorem read16_of_drop {b r : Octets} {i : Nat} {w : UInt16} (h : b.drop i = ofUInt16 w ++ r) :
    read16 b i = .ok w := by
  rw [read16, h]
  exact congrArg Except.ok (word16_octets w)

theorem read32_of_drop {b r : Octets} {i : Nat} {w : UInt32} (h : b.drop i = ofUInt32 w ++ r) :
    read32 b i = .ok w := by
  rw [read32, h]
  exact congrArg Except.ok (word32_octets w)

/-- Writing directly behind the octets `done`. -/
theorem write_append {done rest v : Octets} {i : Nat} (hi : done.length = i)
    (hv : v.length ≤ rest.length) :
    write (done ++ rest) i v = .ok (done ++ v ++ rest.drop v.length) := by
  subst hi
  have hlen : done.length + v.length ≤ (done ++ rest).length := by
    rw [List.length_append]; omega
  unfold write
  rw [if_pos hlen, List.take_left, ← List.drop_drop, List.drop_left]

theorem split_append {front rest : Octets} {n : Nat} (hn : front.length = n) :
    split (front ++ rest) n = .ok (front, rest) := by
  subst hn
  simp [split]

end Octets

/-! ## Headers -/

namespace Header

/-- The twenty octets of a header with a given checksum field. -/
def octets (h : Header) (checksum : UInt16) : Octets :=
  Octets.ofUInt16 h.srcPort ++ Octets.ofUInt16 h.dstPort ++ Octets.ofUInt32 h.seqNumber.value ++
    Octets.ofUInt32 h.ackNumber.value ++ [h.flags.bits, 0] ++ Octets.ofUInt16 h.window ++
    Octets.ofUInt16 checksum ++ Octets.ofUInt16 0

@[simp] theorem length_octets (h : Header) (checksum : UInt16) :
    (h.octets checksum).length = Segment.headerLen := rfl

/-- Every octet of the header is written, and none behind it. -/
theorem write_eq (h : Header) {b : Octets} (hb : Segment.headerLen ≤ b.length) :
    h.write b = .ok (h.octets 0 ++ b.drop Segment.headerLen) := by
  have hlen : 20 ≤ b.length := hb
  -- Each field starts where the one before it ends.
  have next {done v : Octets} {i j : Nat} (h : done.length = i ∧ v.length + i = j ∧ j ≤ 20) :
      Octets.write (done ++ b.drop i) i v = .ok ((done ++ v) ++ b.drop j) := by
    obtain ⟨hi, hv, hj⟩ := h
    rw [Octets.write_append hi (by rw [List.length_drop]; omega), List.drop_drop, Nat.add_comm, hv]
  have h0 : b = [] ++ b.drop 0 := rfl
  unfold write Segment.setSrcPort Segment.setDstPort Segment.setSeqNumber Segment.setAckNumber
    Segment.setFlags Segment.setWindow Segment.setChecksum Segment.setUrgent
  rw [h0, next (i := 0) (j := 2), Except.ok_bind, next (i := 2) (j := 4), Except.ok_bind,
    next (i := 4) (j := 8), Except.ok_bind, next (i := 8) (j := 12), Except.ok_bind,
    next (i := 12) (j := 14), Except.ok_bind, next (i := 14) (j := 16), Except.ok_bind,
    next (i := 16) (j := 18), Except.ok_bind, next (i := 18) (j := 20)]
  · rfl
  all_goals exact ⟨rfl, rfl, by decide⟩

/-- The header that was written is read, with the length of what stands behind it. -/
theorem read_octets (h : Header) (checksum : UInt16) (p : Octets) :
    read (h.octets checksum ++ p) = .ok { h with payloadLen := UInt16.ofNat p.length } := by
  have h₁ : Segment.srcPort (h.octets checksum ++ p) = .ok h.srcPort :=
    congrArg Except.ok (Octets.word16_octets _)
  have h₂ : Segment.dstPort (h.octets checksum ++ p) = .ok h.dstPort :=
    congrArg Except.ok (Octets.word16_octets _)
  have h₃ : Segment.seqNumber (h.octets checksum ++ p) = .ok h.seqNumber :=
    congrArg (fun w => Except.ok (SeqNumber.mk w)) (Octets.word32_octets _)
  have h₄ : Segment.ackNumber (h.octets checksum ++ p) = .ok h.ackNumber :=
    congrArg (fun w => Except.ok (SeqNumber.mk w)) (Octets.word32_octets _)
  have h₅ : Segment.flags (h.octets checksum ++ p) = .ok h.flags := rfl
  have h₆ : Segment.window (h.octets checksum ++ p) = .ok h.window :=
    congrArg Except.ok (Octets.word16_octets _)
  have h₇ : Segment.payload (h.octets checksum ++ p) = .ok p := by
    unfold Segment.payload
    rw [Octets.split_append (h.length_octets checksum)]
    rfl
  unfold read
  rw [h₁, h₂, h₃, h₄, h₅, h₆, h₇]
  rfl

theorem exists_read {b : Octets} (hb : Segment.headerLen ≤ b.length) : ∃ h, read b = .ok h := by
  have hlen : 20 ≤ b.length := hb
  obtain ⟨srcPort, h₁⟩ := Octets.exists_read16 (b := b) (i := 0) (by omega)
  obtain ⟨dstPort, h₂⟩ := Octets.exists_read16 (b := b) (i := 2) (by omega)
  obtain ⟨seq, h₃⟩ := Octets.exists_read32 (b := b) (i := 4) (by omega)
  obtain ⟨ack, h₄⟩ := Octets.exists_read32 (b := b) (i := 8) (by omega)
  obtain ⟨flags, h₅⟩ := Octets.exists_read8 (b := b) (i := 12) (by omega)
  obtain ⟨window, h₆⟩ := Octets.exists_read16 (b := b) (i := 14) (by omega)
  unfold read Segment.srcPort Segment.dstPort Segment.seqNumber Segment.ackNumber Segment.flags
    Segment.window Segment.payload Octets.split
  rw [h₁, h₂, h₃, h₄, h₅, h₆, if_pos hb]
  exact ⟨_, rfl⟩

end Header

/-! ## Segments -/

namespace Segment

theorem assemble_eq (h : Header) {p b : Octets} (hb : b.length = headerLen + p.length) :
    assemble h p b = .ok (h.octets 0 ++ p) := by
  have hroom : (b.drop headerLen).length = p.length := by rw [List.length_drop]; omega
  unfold assemble setPayload
  rw [h.write_eq (by omega), Except.ok_bind, Octets.split_append (h.length_octets 0)]
  simp [Octets.copy, hroom]

/-- Only the checksum field changes. -/
theorem setChecksum_octets (h : Header) (old new : UInt16) (p : Octets) :
    setChecksum (h.octets old ++ p) new = .ok (h.octets new ++ p) := by
  simp [setChecksum, Header.octets, Octets.write, Octets.ofUInt16, Octets.ofUInt32]

theorem exists_sum {b : Octets} (hb : b.length ≤ maxLen) (src dst : Address) :
    ∃ s, sum b src dst = .ok s := by
  have hlen : b.length ≤ 65535 := hb
  unfold sum Checksum.ofPseudoHeader
  rw [Checksum.ofOctets_eq (by simp [Checksum.pseudoHeaderLen]),
    Checksum.ofOctets_eq (b := b) (by omega)]
  exact ⟨_, Checksum.ofParts_eq (by simp)⟩

end Segment

namespace Header

theorem exists_verified {b : Octets} (hb : b.length ≤ Segment.maxLen)
    (ends : Option (Address × Address)) : ∃ v, verified b ends = .ok v := by
  match ends with
  | none => exact ⟨true, rfl⟩
  | some (src, dst) =>
    obtain ⟨s, hs⟩ := Segment.exists_sum hb src dst
    exact ⟨s == 0xffff, by simp [verified, Segment.verify, hs]⟩

/-- Parsing never faults. -/
theorem parse_ok (b : Octets) (ends : Option (Address × Address)) : ∃ r, parse b ends = .ok r := by
  unfold parse
  split
  · exact ⟨_, rfl⟩
  split
  · exact ⟨_, rfl⟩
  · rename_i hmin hmax
    obtain ⟨v, hv⟩ := exists_verified (Nat.le_of_not_lt hmax) ends
    obtain ⟨h, hh⟩ := exists_read (Nat.le_of_not_lt hmin)
    rw [hv, hh]
    cases v
    · exact ⟨_, rfl⟩
    · exact ⟨_, rfl⟩

/-- The checksum field of the segment with the header `h` and the payload `p`. -/
def checksum (h : Header) (p : Octets) (src dst : Address) : UInt16 :=
  ~~~Checksum.folded (Checksum.total 0
    (Checksum.pseudoOctets src dst .tcp (UInt16.ofNat (Segment.headerLen + p.length)) ++
      (h.octets 0 ++ p)))

/-- The finished segment with the header `h` and the payload `p` from `src` to `dst`. -/
def segment (h : Header) (p : Octets) (src dst : Address) : Octets :=
  h.octets (h.checksum p src dst) ++ p

theorem read_segment (h : Header) (p : Octets) (src dst : Address) :
    read (h.segment p src dst) = .ok { h with payloadLen := UInt16.ofNat p.length } :=
  h.read_octets _ p

/-- A header is accepted if and only if the segment has a possible length, passes the verification,
and is read as the header. -/
theorem parse_eq_ok_iff {b : Octets} {ends : Option (Address × Address)} {q : Header} :
    parse b ends = .ok (.ok q) ↔ (Segment.headerLen ≤ b.length ∧ b.length ≤ Segment.maxLen) ∧
      verified b ends = .ok true ∧ read b = .ok q := by
  by_cases hlen : Segment.headerLen ≤ b.length ∧ b.length ≤ Segment.maxLen
  · obtain ⟨v, hv⟩ := exists_verified hlen.2 ends
    obtain ⟨q', hq⟩ := exists_read hlen.1
    unfold parse
    rw [if_neg (Nat.not_lt.mpr hlen.1), if_neg (Nat.not_lt.mpr hlen.2), hv, hq]
    cases v <;> simp [hlen]
  · refine iff_of_false (fun h => hlen ?_) fun h => hlen h.1
    unfold parse at h
    split at h
    · cases h
    split at h
    · cases h
    · rename_i hmin hmax
      exact ⟨Nat.le_of_not_lt hmin, Nat.le_of_not_lt hmax⟩

theorem parse_wrongChecksum {b : Octets} {ends : Option (Address × Address)}
    (hmin : Segment.headerLen ≤ b.length) (hmax : b.length ≤ Segment.maxLen)
    (hv : verified b ends = .ok false) : parse b ends = .ok (.error .wrongChecksum) := by
  unfold parse
  rw [if_neg (Nat.not_lt.mpr hmin), if_neg (Nat.not_lt.mpr hmax), hv]
  rfl

/-- What is the matter with a segment that is rejected. -/
def Rejected (b : Octets) (ends : Option (Address × Address)) : Rejection → Prop
  | .truncated => b.length < Segment.headerLen
  | .malformed => Segment.maxLen < b.length
  | .wrongChecksum =>
    (Segment.headerLen ≤ b.length ∧ b.length ≤ Segment.maxLen) ∧ verified b ends = .ok false

/-- A segment is rejected for a reason if and only if this is the matter with it. -/
theorem parse_eq_error_iff {b : Octets} {ends : Option (Address × Address)} {r : Rejection} :
    parse b ends = .ok (.error r) ↔ Rejected b ends r := by
  unfold parse
  by_cases hmin : b.length < Segment.headerLen
  · have hmax : b.length ≤ Segment.maxLen := Nat.le_trans (Nat.le_of_lt hmin) (by decide)
    rw [if_pos hmin]
    cases r <;> simp [Rejected, hmin, hmax, Nat.not_le.mpr]
  by_cases hmax : Segment.maxLen < b.length
  · rw [if_neg hmin, if_pos hmax]
    cases r <;> simp [Rejected, hmin, hmax, Nat.not_le.mpr]
  · obtain ⟨v, hv⟩ := exists_verified (Nat.le_of_not_lt hmax) ends
    obtain ⟨q, hq⟩ := exists_read (Nat.le_of_not_lt hmin)
    have hlen := And.intro (Nat.le_of_not_lt hmin) (Nat.le_of_not_lt hmax)
    rw [if_neg hmin, if_neg hmax, hv, hq]
    cases r <;> cases v <;> simp [Rejected, hmin, hmax, hlen, hv]

/-- A header that is accepted is what the segment is read as, with or without verification. -/
theorem parse_eq_ok {b : Octets} {ends : Option (Address × Address)} {q : Header}
    (h : parse b ends = .ok (.ok q)) : read b = .ok q ∧ parse b none = .ok (.ok q) := by
  obtain ⟨hlen, -, hr⟩ := parse_eq_ok_iff.mp h
  exact ⟨hr, parse_eq_ok_iff.mpr ⟨hlen, rfl, hr⟩⟩

/-- The payload of a segment that is accepted is all that stands behind its header. -/
theorem payloadLen_parse {b : Octets} {ends : Option (Address × Address)} {q : Header}
    (h : parse b ends = .ok (.ok q)) : Segment.headerLen + q.payloadLen.toNat = b.length := by
  obtain ⟨⟨hmin, hmax⟩, -, hr⟩ := parse_eq_ok_iff.mp h
  have hpayload : Segment.payload b = .ok (b.drop Segment.headerLen) := by
    unfold Segment.payload Octets.split
    rw [if_pos hmin]
    rfl
  have hlen : (UInt16.ofNat (b.drop Segment.headerLen).length).toNat =
      b.length - Segment.headerLen := by
    rw [UInt16.toNat_ofNat', List.length_drop]
    simp only [Segment.headerLen, Segment.maxLen] at *
    omega
  unfold read at hr
  rw [hpayload] at hr
  obtain ⟨_, -, hr⟩ := Except.bind_eq_ok.mp hr
  obtain ⟨_, -, hr⟩ := Except.bind_eq_ok.mp hr
  obtain ⟨_, -, hr⟩ := Except.bind_eq_ok.mp hr
  obtain ⟨_, -, hr⟩ := Except.bind_eq_ok.mp hr
  obtain ⟨_, -, hr⟩ := Except.bind_eq_ok.mp hr
  obtain ⟨_, -, hr⟩ := Except.bind_eq_ok.mp hr
  cases hr
  rw [hlen]
  exact Nat.add_sub_cancel' hmin

end Header

end TcpEngine
