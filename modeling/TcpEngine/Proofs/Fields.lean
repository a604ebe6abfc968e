import TcpEngine.Proofs.Verification

/-!
# Fields apart from each other

Writing octets into a buffer changes neither its length nor any other octet
(`Octets.getElem?_write`). Reading looks at the octets that are read only (`Octets.window_congr`),
and so a field is read as before when another was written. A received segment can be given other
flags and a fresh checksum: it is accepted with the header that it had, but for the flags
(`Header.parse_reflag`).
-/

namespace TcpEngine

namespace Octets

variable {b b' v : Octets} {i j : Nat}

theorem write_eq_ok (h : write b i v = .ok b') :
    i + v.length ≤ b.length ∧ b' = b.take i ++ v ++ b.drop (i + v.length) := by
  unfold write at h
  split at h
  · rename_i hle
    exact ⟨hle, (Except.ok.inj h).symm⟩
  · cases h

theorem length_write (h : write b i v = .ok b') : b'.length = b.length := by
  obtain ⟨hle, rfl⟩ := write_eq_ok h
  simp only [List.length_append, List.length_take, List.length_drop]
  omega

/-- Nothing changes behind the octets that are written. -/
theorem drop_write (h : write b i v = .ok b') (hj : i + v.length ≤ j) : b'.drop j = b.drop j := by
  obtain ⟨hle, rfl⟩ := write_eq_ok h
  have hfront : (b.take i ++ v).length = i + v.length := by
    rw [List.length_append, List.length_take, Nat.min_eq_left (by omega)]
  obtain ⟨d, rfl⟩ := Nat.exists_eq_add_of_le hj
  rw [← List.drop_drop, List.drop_left' hfront, List.drop_drop]

/-- What was written is what lies there. -/
theorem drop_write_self (h : write b i v = .ok b') : b'.drop i = v ++ b.drop (i + v.length) := by
  obtain ⟨hle, rfl⟩ := write_eq_ok h
  have hfront : (b.take i).length = i := by
    rw [List.length_take, Nat.min_eq_left (by omega)]
  rw [List.append_assoc, List.drop_left' hfront]

/-- The octets that were written stand in the place of those that were there. -/
theorem getElem?_write (h : write b i v = .ok b') (j : Nat) :
    b'[j]? = if i ≤ j ∧ j < i + v.length then v[j - i]? else b[j]? := by
  obtain ⟨hle, rfl⟩ := write_eq_ok h
  have hfront : (b.take i).length = i := List.length_take_of_le (by omega)
  rw [List.append_assoc, List.getElem?_append, List.getElem?_append, List.getElem?_drop, hfront]
  by_cases hbefore : j < i
  · rw [if_pos hbefore, if_neg (by omega), List.getElem?_take_of_lt hbefore]
  · by_cases hbehind : j - i < v.length
    · rw [if_neg hbefore, if_pos hbehind, if_pos (by omega)]
    · rw [if_neg hbefore, if_neg hbehind, if_neg (by omega)]
      congr 1
      omega

theorem getElem?_write_other (h : write b i v = .ok b') (hj : j < i ∨ i + v.length ≤ j) :
    b'[j]? = b[j]? := by
  rw [getElem?_write h, if_neg (by omega)]

/-! Reading a word looks at its octets only. -/

theorem read8_window (b : Octets) (i : Nat) : read8 b i = read8 ((b.drop i).take 1) 0 := by
  unfold read8
  rcases b.drop i with _ | ⟨x, r⟩ <;> rfl

theorem read16_window (b : Octets) (i : Nat) : read16 b i = read16 ((b.drop i).take 2) 0 := by
  unfold read16
  rcases b.drop i with _ | ⟨x, _ | ⟨y, r⟩⟩ <;> rfl

theorem read32_window (b : Octets) (i : Nat) : read32 b i = read32 ((b.drop i).take 4) 0 := by
  unfold read32
  rcases b.drop i with _ | ⟨w, _ | ⟨x, _ | ⟨y, _ | ⟨z, r⟩⟩⟩⟩ <;> rfl

/-- The `n` octets from a position on are the same, if each of them is. -/
theorem window_congr {n : Nat} (h : ∀ j, i ≤ j → j < i + n → b'[j]? = b[j]?) :
    (b'.drop i).take n = (b.drop i).take n := by
  apply List.ext_getElem?
  intro k
  rw [List.getElem?_take, List.getElem?_take]
  split
  · rw [List.getElem?_drop, List.getElem?_drop]
    exact h (i + k) (Nat.le_add_right ..) (by omega)
  · rfl

theorem read8_congr (h : ∀ j, i ≤ j → j < i + 1 → b'[j]? = b[j]?) : read8 b' i = read8 b i := by
  rw [read8_window, window_congr h, ← read8_window]

theorem read16_congr (h : ∀ j, i ≤ j → j < i + 2 → b'[j]? = b[j]?) :
    read16 b' i = read16 b i := by
  rw [read16_window, window_congr h, ← read16_window]

theorem read32_congr (h : ∀ j, i ≤ j → j < i + 4 → b'[j]? = b[j]?) :
    read32 b' i = read32 b i := by
  rw [read32_window, window_congr h, ← read32_window]

theorem read8_write (h : write b i v = .ok b') (hj : j + 1 ≤ i ∨ i + v.length ≤ j) :
    read8 b' j = read8 b j :=
  read8_congr fun k _ _ => getElem?_write_other h (by omega)

theorem read16_write (h : write b i v = .ok b') (hj : j + 2 ≤ i ∨ i + v.length ≤ j) :
    read16 b' j = read16 b j :=
  read16_congr fun k _ _ => getElem?_write_other h (by omega)

theorem read32_write (h : write b i v = .ok b') (hj : j + 4 ≤ i ∨ i + v.length ≤ j) :
    read32 b' j = read32 b j :=
  read32_congr fun k _ _ => getElem?_write_other h (by omega)

end Octets

/-! ## Headers -/

namespace Segment

variable {b b' v : Octets} {i : Nat}

/-- The segment with other flags and a fresh checksum. -/
def reflag (b : Octets) (f : Flags) (src dst : Address) : Checked Octets := do
  let b ← setFlags b f
  withChecksum b src dst

theorem payload_write (h : Octets.write b i v = .ok b') (hi : i + v.length ≤ headerLen) :
    payload b' = payload b := by
  unfold payload Octets.split
  rw [Octets.length_write h, Octets.drop_write h hi]
  split <;> rfl

end Segment

namespace Header

variable {b b' : Octets} {q : Header}

theorem read_setChecksum {w : UInt16} (h : Segment.setChecksum b w = .ok b') :
    read b' = read b := by
  unfold Segment.setChecksum at h
  unfold read Segment.srcPort Segment.dstPort Segment.seqNumber Segment.ackNumber Segment.flags
    Segment.window
  rw [Octets.read16_write h (by simp), Octets.read16_write h (by simp),
    Octets.read32_write h (by simp), Octets.read32_write h (by simp),
    Octets.read8_write h (by simp), Octets.read16_write h (by simp),
    Segment.payload_write h (by simp [Segment.headerLen])]

theorem read_setFlags {f : Flags} (h : Segment.setFlags b f = .ok b') (hq : read b = .ok q) :
    read b' = .ok { q with flags := f } := by
  unfold Segment.setFlags at h
  have hflags : Octets.read8 b' 12 = .ok f.bits :=
    Octets.read8_of_drop (Octets.drop_write_self h)
  unfold read Segment.srcPort Segment.dstPort Segment.seqNumber Segment.ackNumber Segment.flags
    Segment.window at hq ⊢
  obtain ⟨srcPort, h₁, hq⟩ := Except.bind_eq_ok.mp hq
  obtain ⟨dstPort, h₂, hq⟩ := Except.bind_eq_ok.mp hq
  obtain ⟨seqNumber, h₃, hq⟩ := Except.bind_eq_ok.mp hq
  obtain ⟨ackNumber, h₄, hq⟩ := Except.bind_eq_ok.mp hq
  obtain ⟨flags, -, hq⟩ := Except.bind_eq_ok.mp hq
  obtain ⟨window, h₆, hq⟩ := Except.bind_eq_ok.mp hq
  obtain ⟨payload, h₇, hq⟩ := Except.bind_eq_ok.mp hq
  cases hq
  rw [Octets.read16_write h (by simp), h₁, Octets.read16_write h (by simp), h₂,
    Octets.read32_write h (by simp), h₃, Octets.read32_write h (by simp), h₄, hflags,
    Octets.read16_write h (by simp), h₆, Segment.payload_write h (by simp [Segment.headerLen]), h₇]
  rfl

/-- An accepted segment with other flags and a fresh checksum is accepted again, with the header
that it had but for the flags. -/
theorem parse_reflag {ends : Option (Address × Address)} (hq : parse b ends = .ok (.ok q))
    (f : Flags) (policy : ChecksumPolicy) (src dst : Address) :
    ∃ b', Segment.reflag b f src dst = .ok b' ∧
      parse b' (policy.ends src dst) = .ok (.ok { q with flags := f }) := by
  obtain ⟨⟨hmin, hmax⟩, -, hr⟩ := parse_eq_ok_iff.mp hq
  have hlen : 20 ≤ b.length := hmin
  obtain ⟨b₁, h₁⟩ : ∃ b₁, Segment.setFlags b f = .ok b₁ :=
    ⟨_, if_pos (by simp only [List.length_cons, List.length_nil]; omega)⟩
  have hlen₁ : b₁.length = b.length := Octets.length_write h₁
  have hmin₁ : Segment.headerLen ≤ b₁.length := by rwa [hlen₁]
  have hmax₁ : b₁.length ≤ Segment.maxLen := by rwa [hlen₁]
  obtain ⟨b₂, h₂, hv⟩ := Segment.verify_withChecksum hmin₁ hmax₁ src dst
  have hset := Segment.withChecksum_eq hmin₁ hmax₁ src dst
  rw [h₂, ← Segment.setChecksum_eq hmin₁] at hset
  have hlen₂ : b₂.length = b₁.length := Octets.length_write hset.symm
  unfold Segment.reflag
  rw [h₁, Except.ok_bind]
  refine ⟨b₂, h₂, parse_eq_ok_iff.mpr ⟨?_, verified_of_verify hv policy, ?_⟩⟩
  · rw [hlen₂]
    exact ⟨hmin₁, hmax₁⟩
  · rw [read_setChecksum hset.symm]
    exact read_setFlags h₁ hr

end Header

end TcpEngine
