import TcpEngine.SeqNumber

/-!
# The line of sequence numbers

Numbers that are reached from one start. How they are related depends on how far they are from the
start only, modulo 2^32. Any number is reached from any other (`SeqNumber.add_sub`), so this says how
any two numbers are related.

* `SeqNumber.add_eq_add_iff`: when two of them are the same.
* `SeqNumber.distance_add_add`: the signed distance between two of them.
* `SeqNumber.compare_add_add`: two of them that are less than half the line apart are in the order
  in which they are reached.
* `SeqNumber.compare_eq`: the order of any two numbers by the way from one up to the other.
* `SeqNumber.wraps_in_order`: the laws of the line put together.
-/

namespace TcpEngine

namespace SeqNumber

@[simp] theorem add_zero (s : SeqNumber) : s.add 0 = s := by
  cases s
  simp [add]

theorem add_add (s : SeqNumber) (m n : Nat) : (s.add m).add n = s.add (m + n) := by
  simp only [add, UInt32.add_assoc, UInt32.ofNat_add]

theorem toNat_add (s : SeqNumber) (n : Nat) :
    (s.add n).value.toNat = (s.value.toNat + n) % UInt32.size := by
  show (s.value + UInt32.ofNat n).toNat = _
  rw [UInt32.toNat_add, UInt32.toNat_ofNat']
  exact Nat.add_mod_mod ..

theorem add_eq_add_iff (s : SeqNumber) (m n : Nat) :
    s.add m = s.add n ↔ (UInt32.size : Int) ∣ (m : Int) - n := by
  have hvalue : s.add m = s.add n ↔ (s.add m).value.toNat = (s.add n).value.toNat := by
    rw [UInt32.toNat_inj]
    exact ⟨congrArg value, fun h => congrArg mk h⟩
  rw [hvalue, toNat_add, toNat_add]
  simp only [UInt32.size]
  omega

/-- The signed distance is the difference of the ways from the start, brought into its range. -/
theorem distance_add_add (s : SeqNumber) (m n : Nat) :
    (s.add m).distance (s.add n) = Int.bmod ((m : Int) - n) UInt32.size := by
  unfold distance sub
  rw [UInt32.toNat_sub, toNat_add, toNat_add]
  simp only [UInt32.size, Int.bmod]
  omega

theorem compare_add_add (s : SeqNumber) {m n : Nat} (h : ((m : Int) - n).natAbs < UInt32.size / 2) :
    (s.add m).compare (s.add n) = Ord.compare m n := by
  have hd : (s.add m).distance (s.add n) = (m : Int) - n := by
    rw [distance_add_add]
    simp only [UInt32.size] at h ⊢
    exact Int.bmod_eq_of_le (by omega) (by omega)
  have hlt : (m : Int) - n < 0 ↔ m < n := by omega
  have hgt : 0 < (m : Int) - n ↔ n < m := by omega
  unfold compare
  rw [hd, Int.compare_eq_ite_lt, Nat.compare_eq_ite_lt]
  simp only [hlt, hgt]

/-! ## Any two numbers -/

theorem sub_lt (s t : SeqNumber) : s.sub t < UInt32.size := (s.value - t.value).toNat_lt_size

/-- The way from `s` up to `t` leads to `t`. -/
theorem add_sub (s t : SeqNumber) : s.add (t.sub s) = t := by
  unfold add sub
  rw [UInt32.ofNat_toNat, UInt32.add_comm, UInt32.sub_add_cancel]

theorem sub_add (s : SeqNumber) (n : Nat) : (s.add n).sub s = n % UInt32.size := by
  unfold add sub
  dsimp only
  rw [UInt32.add_comm, UInt32.add_sub_cancel, UInt32.toNat_ofNat']

/-- The ways up and down make up the whole line, unless there is no way to go. -/
theorem sub_rev (s t : SeqNumber) : s.sub t = (UInt32.size - t.sub s) % UInt32.size := by
  have hs := s.value.toNat_lt
  have ht := t.value.toNat_lt
  unfold sub
  rw [UInt32.toNat_sub, UInt32.toNat_sub]
  simp only [UInt32.size]
  omega

theorem sub_eq_zero_iff {s t : SeqNumber} : t.sub s = 0 ↔ s = t := by
  constructor
  · intro h
    rw [← s.add_sub t, h, add_zero]
  · rintro rfl
    simp [sub]

/-- Where the way up is longer than half the line, the signed distance is the way down. -/
theorem distance_eq (s t : SeqNumber) : s.distance t =
    if t.sub s ≤ UInt32.size / 2 then -(t.sub s : Int) else UInt32.size - t.sub s := by
  have hlt := t.sub_lt s
  have hd := s.distance_add_add 0 (t.sub s)
  rw [add_zero, add_sub] at hd
  rw [hd]
  simp only [UInt32.size, Int.bmod] at *
  split <;> omega

theorem compare_eq (s t : SeqNumber) : s.compare t =
    if t.sub s = 0 then .eq else if t.sub s ≤ UInt32.size / 2 then .lt else .gt := by
  have hlt := t.sub_lt s
  unfold compare
  rw [distance_eq, Int.compare_eq_ite_lt]
  grind

theorem lt_iff {s t : SeqNumber} :
    s.lt t = true ↔ 0 < t.sub s ∧ t.sub s ≤ UInt32.size / 2 := by
  unfold lt
  rw [compare_eq]
  grind

theorem gt_iff {s t : SeqNumber} : s.gt t = true ↔ UInt32.size / 2 < t.sub s := by
  unfold gt
  rw [compare_eq]
  grind

/-- Steps along the line add up, also where it wraps around, and the way from one number to another
leads there. Two numbers that are reached from one start by ways that differ by less than half the
line are in the order of the ways. Any two numbers are either equal or one before the other, and what
is before another number has that behind it, but for one exception: of two numbers half the line
apart each is before the other. -/
theorem wraps_in_order (s t : SeqNumber) :
    (∀ m n : UInt64, (s.add m.toNat).add n.toNat = s.add (m + n).toNat) ∧
    s.add (t.sub s) = t ∧
    (∀ n : UInt64, (s.add n.toNat).sub s = n.toNat % UInt32.size) ∧
    (∀ x y : Nat, ((x : Int) - y).natAbs < UInt32.size / 2 →
      (s.add x).compare (s.add y) = Ord.compare x y) ∧
    (s.lt t = true ∧ s ≠ t ∧ s.gt t = false ∨ s.lt t = false ∧ s = t ∧ s.gt t = false ∨
      s.lt t = false ∧ s ≠ t ∧ s.gt t = true) ∧
    ((s.lt t = true ↔ t.gt s = true) ↔ t.sub s ≠ UInt32.size / 2) ∧
    (s.lt t = true ∧ t.lt s = true ↔ t.sub s = UInt32.size / 2) := by
  have hlt := t.sub_lt s
  have hrev := s.sub_rev t
  have hzero := sub_eq_zero_iff (s := s) (t := t)
  refine ⟨fun m n => ?_, s.add_sub t, fun n => s.sub_add n.toNat,
    fun x y h => s.compare_add_add h, ?_, ?_, ?_⟩
  · -- What the sum of two steps loses beyond 64 bits is a multiple of the whole line.
    rw [add_add, add_eq_add_iff, UInt64.toNat_add]
    simp only [UInt32.size]
    omega
  · rw [← Bool.not_eq_true, ← Bool.not_eq_true, lt_iff, gt_iff]
    grind
  · rw [lt_iff, gt_iff]
    simp only [UInt32.size] at *
    omega
  · rw [lt_iff, lt_iff]
    simp only [UInt32.size] at *
    omega

/-- Three places behind the last number but one comes 1, and it is behind it in the order, too. -/
theorem wraps_in_order_one : ∃ s : SeqNumber, s = ⟨0xfffffffe⟩ ∧ s.add 3 = ⟨1⟩ ∧
    ((3 : Nat) - (0 : Nat) : Int).natAbs < UInt32.size / 2 ∧ (s.add 3).compare (s.add 0) = .gt := by
  obtain ⟨-, -, -, horder, -⟩ := wraps_in_order ⟨0xfffffffe⟩ ⟨1⟩
  have hnear : ((3 : Nat) - (0 : Nat) : Int).natAbs < UInt32.size / 2 := by decide
  exact ⟨_, rfl, rfl, hnear, horder 3 0 hnear⟩

end SeqNumber

end TcpEngine
