import Mathlib.Algebra.BigOperators.Group.Finset.Basic
import TcpEngine.Network.Outbox
import TcpEngine.Proofs.Transitions
import TcpEngine.Proofs.Verification

/-!
# Errors that a checksum detects

The sum that a checksum covers is that of the aligned words of its strings
(`Checksum.total_eq_sum`). When one word becomes another, the sum changes by their difference
(`Octets.DifferAt.total`). It is a multiple of 65535 again only if the words are zero and ones, the
two representations of zero (`Checksum.Opposite`).

* `Segment.verify_differ`, `Segment.verify_src`, `Segment.verify_dst`: one word of a segment that
  passes verification is changed, or one half of an address.
* `Segment.verify_octet`: a change of one octet is always detected.
* `Segment.changes_detected`: all of this, and what a host does with a segment of which one octet
  was changed.
-/

namespace TcpEngine

namespace Octets

/-- The aligned word with the number `i`. An octet behind the end of the string counts as zero. -/
def word (b : Octets) (i : Nat) : UInt16 := word16 (b[2 * i]?.getD 0) (b[2 * i + 1]?.getD 0)

@[simp] theorem word_cons_cons (x y : UInt8) (b : Octets) (i : Nat) :
    word (x :: y :: b) (i + 1) = b.word i := by
  simp [word, Nat.mul_add]

theorem word_eq_zero {b : Octets} {i : Nat} (h : b.length ≤ 2 * i) : b.word i = 0 := by
  unfold word
  rw [List.getElem?_eq_none h, List.getElem?_eq_none (Nat.le_succ_of_le h)]
  rfl

end Octets

namespace Checksum

/-- The sum of a string is that of its aligned words. -/
theorem total_eq_sum (n : Nat) (b : Octets) :
    total n b = n + ∑ i ∈ Finset.range ((b.length + 1) / 2), (b.word i).toNat := by
  induction n, b using total.induct with
  | case1 n => rfl
  | case2 n x =>
    have hword : (Octets.word [x] 0).toNat = 256 * x.toNat := Octets.toNat_word16 x 0
    simp [total, hword]
  | case3 n x y r ih =>
    have hlen : ((x :: y :: r).length + 1) / 2 = (r.length + 1) / 2 + 1 := by
      simp only [List.length_cons]
      omega
    have hword : (Octets.word (x :: y :: r) 0).toNat = 256 * x.toNat + y.toNat :=
      Octets.toNat_word16 x y
    rw [total, ih, hlen, Finset.sum_range_succ', hword]
    simp only [Octets.word_cons_cons]
    omega

/-- Words that stand for the same sum, and are not the same. -/
def Opposite (u v : UInt16) : Prop := (u = 0 ∧ v = 0xffff) ∨ (u = 0xffff ∧ v = 0)

instance (u v : UInt16) : Decidable (Opposite u v) :=
  inferInstanceAs (Decidable ((u = 0 ∧ v = 0xffff) ∨ (u = 0xffff ∧ v = 0)))

/-- A multiple of 65535 in which another word takes the place of one is a multiple again if and only
if the words are opposite. -/
theorem exchange_iff {m n : Nat} {u v : UInt16} (hne : v ≠ u) (hm : m % 65535 = 0)
    (h : n + u.toNat = m + v.toNat) : n % 65535 = 0 ↔ Opposite u v := by
  have hu := u.toNat_lt
  have hv := v.toNat_lt
  have hzero : (0 : UInt16).toNat = 0 := rfl
  have hones : (0xffff : UInt16).toNat = 65535 := rfl
  unfold Opposite
  rw [Ne, ← UInt16.toNat_inj] at hne
  rw [← UInt16.toNat_inj, ← UInt16.toNat_inj, ← UInt16.toNat_inj, ← UInt16.toNat_inj, hzero, hones]
  omega

/-- Opposite words have no octet in common. -/
theorem Opposite.octets {x y x' y' : UInt8}
    (h : Opposite (Octets.word16 x y) (Octets.word16 x' y')) : x ≠ x' ∧ y ≠ y' := by
  have hzero : (0 : UInt16) = Octets.word16 0 0 := rfl
  have hones : (0xffff : UInt16) = Octets.word16 255 255 := rfl
  unfold Opposite at h
  rw [hzero, hones] at h
  simp only [Octets.word16_inj] at h
  obtain ⟨⟨rfl, rfl⟩, rfl, rfl⟩ | ⟨⟨rfl, rfl⟩, rfl, rfl⟩ := h
  · decide
  · decide

end Checksum

/-! ## Changes of one word -/

namespace Octets

/-- The strings have the same length, and the same words but for the one with the number `i`. -/
structure DifferAt (i : Nat) (b b' : Octets) : Prop where
  length : b'.length = b.length
  others : ∀ j, j ≠ i → b'.word j = b.word j
  differ : b'.word i ≠ b.word i

variable {b b' : Octets} {i : Nat}

theorem DifferAt.index_lt (h : DifferAt i b b') : i < (b.length + 1) / 2 := by
  by_contra hi
  have hlen := h.length
  exact h.differ (by rw [word_eq_zero (by omega), word_eq_zero (by omega)])

/-- The sums of the two strings differ as the words do. -/
theorem DifferAt.total (h : DifferAt i b b') :
    Checksum.total 0 b' + (b.word i).toNat = Checksum.total 0 b + (b'.word i).toNat := by
  have hi := Finset.mem_range.mpr h.index_lt
  have hothers : ∑ j ∈ (Finset.range ((b.length + 1) / 2)).erase i, (b'.word j).toNat =
      ∑ j ∈ (Finset.range ((b.length + 1) / 2)).erase i, (b.word j).toNat :=
    Finset.sum_congr rfl fun j hj => by rw [h.others j (Finset.ne_of_mem_erase hj)]
  rw [Checksum.total_eq_sum, Checksum.total_eq_sum, h.length, ← Finset.add_sum_erase _ _ hi,
    ← Finset.add_sum_erase _ _ hi, hothers]
  omega

/-- Strings that differ in one octet differ in one word, and not in the whole of it. -/
theorem differAt_of_octet {p : Nat} (hlen : b'.length = b.length) (hp : b'[p]? ≠ b[p]?)
    (hothers : ∀ q, q ≠ p → b'[q]? = b[q]?) :
    DifferAt (p / 2) b b' ∧ ¬ Checksum.Opposite (b.word (p / 2)) (b'.word (p / 2)) := by
  have hlt : p < b.length := by
    by_contra hge
    exact hp (by rw [List.getElem?_eq_none (by omega), List.getElem?_eq_none (by omega)])
  have hoctet : b'[p]?.getD 0 ≠ b[p]?.getD 0 := by
    intro he
    rw [List.getElem?_eq_getElem hlt, List.getElem?_eq_getElem (hlen ▸ hlt)] at he hp
    exact hp (congrArg some he)
  refine ⟨⟨hlen, fun j hj => ?_, fun he => ?_⟩, fun ho => ?_⟩
  · unfold word
    rw [hothers _ (by omega), hothers _ (by omega)]
  · obtain ⟨hhigh, hlow⟩ := word16_inj.mp he
    obtain hpar | hpar : p = 2 * (p / 2) ∨ p = 2 * (p / 2) + 1 := by omega
    · exact hoctet (by rwa [← hpar] at hhigh)
    · exact hoctet (by rwa [← hpar] at hlow)
  · obtain ⟨hhigh, hlow⟩ := ho.octets
    obtain hpar | hpar : p = 2 * (p / 2) ∨ p = 2 * (p / 2) + 1 := by omega
    · exact hlow (by rw [hothers _ (by omega)])
    · exact hhigh (by rw [hothers _ (by omega)])

end Octets

/-! ## Verification -/

namespace Segment

variable {b b' : Octets} {src dst src' dst' : Address} {i : Nat}

theorem words_eq_add (b : Octets) (src dst : Address) :
    words b src dst = Checksum.total 0 src.octets + Checksum.total 0 dst.octets +
      Checksum.total 0 ([0, Protocol.tcp.number] ++ Octets.ofUInt16 (UInt16.ofNat b.length)) +
      Checksum.total 0 b := by
  unfold words Checksum.pseudoOctets
  rw [List.append_assoc, List.append_assoc, Checksum.total_append (by simp [Address.octets]),
    Checksum.total_append (by simp [Address.octets]), Checksum.total_eq_add _ (_ ++ _),
    Checksum.total_eq_add _ dst.octets]

/-- The sum of a segment that passes verification has changed by one word. -/
theorem verify_exchange (hmax : b.length ≤ maxLen) (hmax' : b'.length ≤ maxLen)
    (hv : verify b src dst = .ok true) {u v : UInt16} (hne : v ≠ u)
    (hwords : words b' src' dst' + u.toNat = words b src dst + v.toNat) :
    verify b' src' dst' = .ok (decide (Checksum.Opposite u v)) := by
  have hm := (verify_iff hmax src dst).mp hv
  rw [verify_eq hmax']
  exact congrArg Except.ok (decide_eq_decide.mpr (Checksum.exchange_iff hne hm hwords))

theorem verify_differ (hmax : b.length ≤ maxLen) (hv : verify b src dst = .ok true)
    (h : Octets.DifferAt i b b') :
    verify b' src dst = .ok (decide (Checksum.Opposite (b.word i) (b'.word i))) := by
  have htotal := h.total
  refine verify_exchange hmax (h.length ▸ hmax) hv h.differ ?_
  rw [words_eq_add, words_eq_add, h.length]
  omega

theorem verify_src (hmax : b.length ≤ maxLen) (hv : verify b src dst = .ok true)
    (h : Octets.DifferAt i src.octets src'.octets) : verify b src' dst =
      .ok (decide (Checksum.Opposite (Octets.word src.octets i) (Octets.word src'.octets i))) := by
  have htotal := h.total
  refine verify_exchange hmax hmax hv h.differ ?_
  rw [words_eq_add, words_eq_add]
  omega

theorem verify_dst (hmax : b.length ≤ maxLen) (hv : verify b src dst = .ok true)
    (h : Octets.DifferAt i dst.octets dst'.octets) : verify b src dst' =
      .ok (decide (Checksum.Opposite (Octets.word dst.octets i) (Octets.word dst'.octets i))) := by
  have htotal := h.total
  refine verify_exchange hmax hmax hv h.differ ?_
  rw [words_eq_add, words_eq_add]
  omega

/-- A segment of which one octet was changed does not pass any more. -/
theorem verify_octet (hmax : b.length ≤ maxLen) (hv : verify b src dst = .ok true) {p : Nat}
    (hlen : b'.length = b.length) (hp : b'[p]? ≠ b[p]?) (hothers : ∀ q, q ≠ p → b'[q]? = b[q]?) :
    verify b' src dst = .ok false := by
  obtain ⟨hdiffer, hopposite⟩ := Octets.differAt_of_octet hlen hp hothers
  rw [verify_differ hmax hv hdiffer, decide_eq_false hopposite]

/-- When one aligned word of a segment that passes verification is changed, or one half of an
address, it passes again if and only if zero and ones have taken each other's place. A segment of
which one octet was changed is rejected by every host that verifies checksums, and leaves all as it
was. -/
theorem changes_detected (hmin : headerLen ≤ b.length) (hmax : b.length ≤ maxLen)
    (hv : verify b src dst = .ok true) :
    (∀ i b', Octets.DifferAt i b b' →
      verify b' src dst = .ok (decide (Checksum.Opposite (b.word i) (b'.word i)))) ∧
    (∀ i (src' : Address), Octets.DifferAt i src.octets src'.octets → verify b src' dst =
      .ok (decide (Checksum.Opposite (Octets.word src.octets i) (Octets.word src'.octets i)))) ∧
    (∀ i (dst' : Address), Octets.DifferAt i dst.octets dst'.octets → verify b src dst' =
      .ok (decide (Checksum.Opposite (Octets.word dst.octets i) (Octets.word dst'.octets i)))) ∧
    ∀ (b' : Octets) (p : Nat), b'.length = b.length → b'[p]? ≠ b[p]? →
      (∀ q, q ≠ p → b'[q]? = b[q]?) →
      ∀ {α ν : Type} [Arena α] [Network ν] (h : Host α ν), h.table.policy = .verify →
        ∃ h', h.receive b' src dst = .ok (.error (.rejected .wrongChecksum), h') ∧
          h'.table = h.table ∧ h'.link.arena = h.link.arena ∧
          h'.link.network = h.link.network := by
  refine ⟨fun i b' h => verify_differ hmax hv h, fun i src' h => verify_src hmax hv h,
    fun i dst' h => verify_dst hmax hv h, ?_⟩
  intro b' p hlen hp hothers α ν _ _ h hpolicy
  have hfalse := verify_octet hmax hv hlen hp hothers
  have hparse : Header.parse b' (h.table.policy.ends src dst) = .ok (.error .wrongChecksum) := by
    rw [hpolicy]
    exact Header.parse_wrongChecksum (hlen ▸ hmin) (hlen ▸ hmax) hfalse
  exact ⟨_, Host.receive_rejected hparse, rfl, rfl, rfl⟩

/-- The field of a segment has ones for its checksum 0. The last octet of its header is changed. -/
theorem changes_detected_urgent : ∃ b b' : Octets,
    b = [0xeb, 0xe2] ++ List.replicate 14 0 ++ [0xff, 0xff, 0, 0] ∧ b' = b.set 19 1 ∧
    headerLen ≤ b.length ∧ b.length ≤ maxLen ∧
    verify b ⟨10, 0, 0, 1⟩ ⟨10, 0, 0, 2⟩ = .ok true ∧ b'.length = b.length ∧ b'[19]? ≠ b[19]? ∧
    (∀ q, q ≠ 19 → b'[q]? = b[q]?) ∧ ∃ h : Host Unbounded Outbox,
      h = .start { address := ⟨10, 0, 0, 2⟩ } {} { address := ⟨10, 0, 0, 2⟩ } ∧
      h.table.policy = .verify ∧
      ∃ h', h.receive b' ⟨10, 0, 0, 1⟩ ⟨10, 0, 0, 2⟩ =
        .ok (.error (.rejected .wrongChecksum), h') ∧ h'.table = h.table := by
  have hv : verify ([0xeb, 0xe2] ++ List.replicate 14 0 ++ [0xff, 0xff, 0, 0]) ⟨10, 0, 0, 1⟩
      ⟨10, 0, 0, 2⟩ = .ok true := rfl
  obtain ⟨-, -, -, hreceive⟩ := changes_detected (by decide) (by decide) hv
  obtain ⟨h', he, ht, -, -⟩ := hreceive (List.set _ 19 1) 19 List.length_set (by decide)
    (fun _ hq => List.getElem?_set_ne hq.symm)
    (Host.start { address := ⟨10, 0, 0, 2⟩ } ({} : Unbounded)
      ({ address := ⟨10, 0, 0, 2⟩ } : Outbox)) rfl
  exact ⟨_, _, rfl, rfl, by decide, by decide, hv, List.length_set, by decide,
    fun _ hq => List.getElem?_set_ne hq.symm, _, rfl, rfl, h', he, ht⟩

end Segment

end TcpEngine
