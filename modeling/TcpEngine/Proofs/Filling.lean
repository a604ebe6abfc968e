import TcpEngine.Proofs.Reliability
import TcpEngine.Proofs.RoundTrip

/-!
# The checksum that is filled in

Filling in the checksum of a segment touches the checksum field alone, and the word that it leaves
there is the one that verification asks for. Of the two representations of zero the second is never
left, but it is accepted.

* `segmentChecksum_of_verify`: the checksum of a segment that passes verification is 0, in whatever
  parts it is taken.
* `Segment.withChecksum_exact`: what filling in leaves, and which field a segment must have to pass
  verification without it.
-/

namespace TcpEngine

/-! ## The checksum in two parts -/

section

variable {α : Type} [Arena α] {header payload : Octets} {src dst : Address}

/-- The checksum in two parts is the complement of the sum of all words. -/
theorem segmentChecksum_words {arena arena' : α} {sum : UInt16}
    (he : segmentChecksum arena header payload src dst = .ok (.ok sum, arena')) :
    sum = ~~~Checksum.folded (Segment.words (header ++ payload) src dst) := by
  obtain ⟨r, arena₁, hc, he'⟩ := segmentChecksum_computed arena header payload src dst
  cases he.symm.trans he'
  cases hc with
  | done _ _ _ hfilled => rw [hfilled, Segment.words_eq_total, List.length_append]

/-- The checksum of a segment that passes verification is 0. -/
theorem segmentChecksum_of_verify {arena arena' : α} {sum : UInt16}
    (hmax : (header ++ payload).length ≤ Segment.maxLen)
    (hv : Segment.verify (header ++ payload) src dst = .ok true)
    (he : segmentChecksum arena header payload src dst = .ok (.ok sum, arena')) : sum = 0 := by
  have hones := (Checksum.folded_eq_ones_iff (Segment.words_lt hmax src dst)).mpr
    ⟨Segment.words_ne_zero _ src dst, (Segment.verify_iff hmax src dst).mp hv⟩
  rw [segmentChecksum_words he, hones]
  rfl

/-- Without a limit on memory the checksum is always there. -/
theorem exists_segmentChecksum (arena : Unbounded)
    (hmax : (header ++ payload).length ≤ Segment.maxLen) (src dst : Address) :
    ∃ sum, segmentChecksum arena header payload src dst = .ok (.ok sum, arena) := by
  rw [List.length_append] at hmax
  obtain ⟨b, a, hb, hlen, -⟩ := Unbounded.reliable.allocate arena
    (Checksum.pseudoHeaderLen + (header.length + payload.length)) trivial
    (Nat.add_le_add_left hmax _)
  obtain ⟨r, arena', hc, he⟩ := segmentChecksum_computed arena header payload src dst
  cases hc with
  | tooLarge hlong => exact absurd hmax (Nat.not_le.mpr hlong)
  | noBuffer _ hnone => cases hb.symm.trans hnone
  | wrongBuffer _ hsome hne =>
    cases hb.symm.trans hsome
    exact absurd hlen hne
  | done _ _ _ _ => exact ⟨_, he⟩

end

/-! ## The checksum field -/

namespace Segment

variable {b : Octets}

theorem getElem?_fill (hb : headerLen ≤ b.length) (w : UInt16) {i : Nat} (h16 : i ≠ 16)
    (h17 : i ≠ 17) : (fill b w)[i]? = b[i]? := by
  have hlen : 20 ≤ b.length := hb
  unfold fill
  grind [Octets.length_ofUInt16]

theorem checksum_fill (hb : headerLen ≤ b.length) (w : UInt16) : checksum (fill b w) = .ok w := by
  have hfront : (b.take 16).length = 16 := by
    have hlen : 20 ≤ b.length := hb
    rw [List.length_take, Nat.min_eq_left (by omega)]
  have hdrop : (fill b w).drop 16 = Octets.ofUInt16 w ++ b.drop 18 := List.drop_left' hfront
  exact Octets.read16_of_drop hdrop

/-- A segment is filled already with what its checksum field holds. -/
theorem fill_self {v : UInt16} (h : checksum b = .ok v) : fill b v = b := by
  have hdrop : b.drop 16 = Octets.ofUInt16 v ++ b.drop 18 := Octets.drop_of_read16 h
  rw [fill, ← hdrop, List.take_append_drop]

/-- What is filled in does not depend on what was in the field. -/
theorem filling_fill (hb : headerLen ≤ b.length) (w : UInt16) (src dst : Address) :
    filling (fill b w) src dst = filling b src dst := by
  unfold filling
  rw [fill_fill hb]

/-- Filling in the checksum of a segment changes the checksum field only, to a word other than the
second representation of zero, and filling in again changes nothing. The segment then passes
verification and has the checksum 0, in whatever parts it is taken. The segment passes verification
as it is if and only if its field has that word, or has the second representation of zero where the
word is the first. -/
theorem withChecksum_exact (hmin : headerLen ≤ b.length) (hmax : b.length ≤ maxLen)
    (src dst : Address) :
    ∃ b' w, withChecksum b src dst = .ok b' ∧ b'.length = b.length ∧
      (∀ i, i ≠ 16 → i ≠ 17 → b'[i]? = b[i]?) ∧ checksum b' = .ok w ∧ w ≠ 0xffff ∧
      withChecksum b' src dst = .ok b' ∧ verify b' src dst = .ok true ∧
      (∀ header payload, header ++ payload = b' →
        segmentChecksum ({} : Unbounded) header payload src dst = .ok (.ok 0, {}) ∧
        ∀ {α : Type} [Arena α] (arena arena' : α) (sum : UInt16),
          segmentChecksum arena header payload src dst = .ok (.ok sum, arena') → sum = 0) ∧
      ∃ v, checksum b = .ok v ∧
        verify b src dst = .ok (decide (v = w ∨ (w = 0 ∧ v = 0xffff))) := by
  let w := filling b src dst
  have hlen := length_fill hmin w
  have hmin' : headerLen ≤ (fill b w).length := by rwa [hlen]
  have hmax' : (fill b w).length ≤ maxLen := by rwa [hlen]
  have hverify : verify (fill b w) src dst = .ok true :=
    (verify_fill_iff hmin hmax w src dst).mpr (.inl rfl)
  refine ⟨fill b w, w, withChecksum_eq hmin hmax src dst, hlen,
    fun i h16 h17 => getElem?_fill hmin w h16 h17, checksum_fill hmin w,
    filling_ne_ones hmin hmax src dst, ?_, hverify, ?_, ?_⟩
  · rw [withChecksum_eq hmin' hmax', fill_fill hmin, filling_fill hmin]
  · intro header payload hparts
    rw [← hparts] at hverify hmax'
    refine ⟨?_, fun arena arena' sum he => segmentChecksum_of_verify hmax' hverify he⟩
    obtain ⟨sum, he⟩ := exists_segmentChecksum {} hmax' src dst
    rw [he, segmentChecksum_of_verify hmax' hverify he]
  · obtain ⟨v, hv⟩ : ∃ v, checksum b = .ok v := Octets.exists_read16 (by
      have : 20 ≤ b.length := hmin
      omega)
    have hiff := verify_fill_iff hmin hmax v src dst
    rw [fill_self hv, verify_iff hmax] at hiff
    refine ⟨v, hv, ?_⟩
    rw [verify_eq hmax]
    exact congrArg Except.ok (decide_eq_decide.mpr hiff)

/-- The words of the segment but for the field sum up to ones, so 0 is filled in, and ones in the
field are accepted as well. -/
theorem withChecksum_exact_zero : ∃ b : Octets,
    b = [0xeb, 0xe2] ++ List.replicate 14 0 ++ [0xff, 0xff, 0, 0] ∧ headerLen ≤ b.length ∧
    b.length ≤ maxLen ∧ ∃ b', withChecksum b ⟨10, 0, 0, 1⟩ ⟨10, 0, 0, 2⟩ = .ok b' ∧
      checksum b' = .ok 0 ∧ verify b' ⟨10, 0, 0, 1⟩ ⟨10, 0, 0, 2⟩ = .ok true ∧
      checksum b = .ok 0xffff ∧ verify b ⟨10, 0, 0, 1⟩ ⟨10, 0, 0, 2⟩ = .ok true := by
  refine ⟨_, rfl, by decide, by decide, ?_⟩
  obtain ⟨b', w, he, -, -, hw, -, -, hv, -, v, hfield, hself⟩ :=
    withChecksum_exact (b := [0xeb, 0xe2] ++ List.replicate 14 0 ++ [0xff, 0xff, 0, 0]) (by decide)
      (by decide) ⟨10, 0, 0, 1⟩ ⟨10, 0, 0, 2⟩
  cases he
  cases hw
  cases hfield
  exact ⟨_, rfl, rfl, hv, rfl, hself⟩

end Segment

end TcpEngine
