import TcpEngine.Checksum

/-!
# Checksums that do not overflow

A checksum is the plain sum of all words with its carries folded in, and overflows if that sum does
not fit the accumulator (`ofOctets_eq_fold`, `ofParts_eq_fold`). The accumulator holds the words of
any string of up to 131074 octets, and so of every segment with its pseudo header. After two
foldings the sum fits a word (`fold_eq`), so checksums of such strings, and of up to 65537 partial
sums, never fault (`ofOctets_eq`, `ofParts_eq`).

A folded sum is 0 for the sum 0 alone, and else the number from 1 to 65535 that has the same
remainder modulo 65535 (`toNat_folded`). So sums may be folded in parts (`folded_add`), and strings
of even length be summed apart from what follows them (`total_append`).
-/

namespace TcpEngine

namespace Checksum

/-! ## Sums of strings -/

/-- The number `n` plus the big-endian words of a string. -/
def total (n : Nat) : Octets → Nat
  | [] => n
  | [x] => n + 256 * x.toNat
  | x :: y :: r => total (n + (256 * x.toNat + y.toNat)) r

/-- A word adds at most 65535, and two octets make a word. -/
theorem total_le (n : Nat) (b : Octets) : total n b ≤ n + 65535 * ((b.length + 1) / 2) := by
  induction n, b using total.induct with
  | case1 n => simp [total]
  | case2 n x =>
    have := x.toNat_lt
    simp only [total, List.length_singleton]
    omega
  | case3 n x y r ih =>
    have := x.toNat_lt
    have := y.toNat_lt
    simp only [total, List.length_cons]
    omega

/-- The accumulator holds the words of 131074 octets. -/
theorem total_lt {b : Octets} (h : b.length ≤ 131074) : total 0 b < UInt32.size := by
  have hle := total_le 0 b
  simp only [UInt32.size]
  omega

theorem total_add (n m : Nat) (b : Octets) : total (n + m) b = total n b + m := by
  induction n, b using total.induct with
  | case1 n => rfl
  | case2 n x =>
    simp only [total]
    omega
  | case3 n x y r ih =>
    simp only [total]
    rw [← ih]
    congr 1
    omega

theorem total_eq_add (n : Nat) (b : Octets) : total n b = n + total 0 b := by
  have h := total_add 0 n b
  rwa [Nat.zero_add, Nat.add_comm] at h

/-- Words do not reach across the end of a string of even length. -/
theorem total_append {a : Octets} (ha : a.length % 2 = 0) (n : Nat) (b : Octets) :
    total n (a ++ b) = total (total n a) b := by
  induction n, a using total.induct with
  | case1 n => rfl
  | case2 n x => simp at ha
  | case3 n x y r ih =>
    have hr : r.length % 2 = 0 := by
      simp only [List.length_cons] at ha
      omega
    exact ih hr

/-- What is summed up on the way is no more than the sum. -/
theorem total_take_le (b : Octets) (k : Nat) : total 0 (b.take (2 * k)) ≤ total 0 b := by
  obtain hle | hle := Nat.le_total (2 * k) b.length
  · have heven : (b.take (2 * k)).length % 2 = 0 := by
      rw [List.length_take, Nat.min_eq_left hle, Nat.mul_mod_right]
    calc total 0 (b.take (2 * k))
      _ ≤ total (total 0 (b.take (2 * k))) (b.drop (2 * k)) := by
        rw [total_eq_add (total 0 (b.take (2 * k)))]
        exact Nat.le_add_right ..
      _ = total 0 b := by rw [← total_append heven, List.take_append_drop]
  · exact Nat.le_of_eq (congrArg (total 0) (List.take_of_length_le hle))

/-!
## Summing in the accumulator

Each loop starts with what was added before it, also where that does not fit: no sum on top of it
fits then. So nothing is asked of the number that a loop starts with, and the loops are put together
one behind the other.
-/

/-- The number `n` as the accumulator holds it. -/
def held (n : Nat) : Checked Nat := if n < UInt32.size then .ok n else .error .overflow

/-- A sum that did not fit before does not fit with another word either. -/
theorem held_accumulate (n w : Nat) : (held n >>= fun m => accumulate m w) = held (n + w) := by
  unfold held
  split
  · rfl
  · rename_i h
    exact (if_neg fun hlt => h (Nat.lt_of_le_of_lt (Nat.le_add_right n w) hlt)).symm

theorem held_fold (n : Nat) : (held n >>= fold) = fold n := by
  unfold held
  split
  · rfl
  · rename_i h
    exact (if_neg fun hlt => h hlt.1).symm

/-- The words of a string are added, and the octet that may be left over. -/
theorem held_addOdd (n : Nat) (b : Octets) :
    (held n >>= fun m => addWords m b >>= fun p => addOdd p.1 p.2) = held (total n b) := by
  induction n, b using total.induct with
  | case1 n => exact bind_pure (held n)
  | case2 n x => exact held_accumulate n (256 * x.toNat)
  | case3 n x y r ih =>
    rw [total, ← ih, ← held_accumulate, bind_assoc]
    simp only [addWords, bind_assoc]

/-- No octet is left over of a string of even length. -/
theorem held_addWords {b : Octets} (hb : b.length % 2 = 0) (n : Nat) :
    (held n >>= fun m => addWords m b) = held (total n b) >>= fun m => .ok (m, none) := by
  induction n, b using total.induct with
  | case1 n => rfl
  | case2 n x => simp at hb
  | case3 n x y r ih =>
    have hr : r.length % 2 = 0 := by
      simp only [List.length_cons] at hb
      omega
    rw [total, ← ih hr, ← held_accumulate, bind_assoc]
    simp only [addWords]

/-- Chunk by chunk the words of a string are added up to where the last of the chunks ends. -/
theorem held_addChunks (n : Nat) {k : Nat} {b : Octets} (hb : chunkLen * k ≤ b.length) :
    (held n >>= fun m => addChunks m k b) =
      held (total n (b.take (chunkLen * k))) >>= fun m => .ok (m, b.drop (chunkLen * k)) := by
  induction k generalizing n b with
  | zero => rfl
  | succ k ih =>
    have hmul : chunkLen * (k + 1) = chunkLen + chunkLen * k := by rw [Nat.mul_succ, Nat.add_comm]
    rw [hmul] at hb ⊢
    have hchunk : (b.take chunkLen).length = chunkLen := List.length_take_of_le (by omega)
    have heven : (b.take chunkLen).length % 2 = 0 := by rw [hchunk]; rfl
    have hrest : chunkLen * k ≤ (b.drop chunkLen).length := by
      rw [List.length_drop]
      omega
    have hsplit : Octets.split b chunkLen = .ok (b.take chunkLen, b.drop chunkLen) :=
      if_pos (by omega)
    calc (held n >>= fun m => addChunks m (k + 1) b)
      _ = (held n >>= fun m => addWords m (b.take chunkLen)) >>= fun p =>
          addChunks p.1 k (b.drop chunkLen) := by
        simp only [addChunks, hsplit, Except.ok_bind, bind_assoc]
      _ = held (total n (b.take chunkLen)) >>= fun m => addChunks m k (b.drop chunkLen) := by
        rw [held_addWords heven, bind_assoc]
        rfl
      _ = held (total n (b.take (chunkLen + chunkLen * k))) >>= fun m =>
          .ok (m, b.drop (chunkLen + chunkLen * k)) := by
        rw [ih _ hrest, ← total_append heven, ← List.take_add, List.drop_drop]

/-- The loops over a string, one after the other, add up its plain sum, and this is folded. -/
theorem ofOctets_eq_fold (b : Octets) : ofOctets b = fold (total 0 b) := by
  obtain ⟨k, hk⟩ : ∃ k, k = b.length / chunkLen := ⟨_, rfl⟩
  have hchunks : chunkLen * k ≤ b.length := hk ▸ Nat.mul_div_le ..
  have heven : (b.take (chunkLen * k)).length % 2 = 0 := by
    rw [List.length_take_of_le hchunks, chunkLen]
    omega
  calc ofOctets b
    _ = (held 0 >>= fun m => addChunks m k b) >>= fun p =>
        addWords p.1 p.2 >>= fun q => addOdd q.1 q.2 >>= fold := by
      rw [ofOctets, ← hk]
      rfl
    _ = (held (total 0 (b.take (chunkLen * k))) >>= fun m =>
        addWords m (b.drop (chunkLen * k)) >>= fun q => addOdd q.1 q.2) >>= fold := by
      simp only [held_addChunks 0 hchunks, bind_assoc, Except.ok_bind]
    _ = held (total 0 b) >>= fold := by
      rw [held_addOdd, ← total_append heven, List.take_append_drop]
    _ = fold (total 0 b) := held_fold _

/-! ## Sums of sums -/

theorem foldl_add_le (sums : List UInt16) (n : Nat) :
    sums.foldl (fun n w => n + w.toNat) n ≤ n + 65535 * sums.length := by
  induction sums generalizing n with
  | nil => simp
  | cons w ws ih =>
    have hw := w.toNat_lt
    have := ih (n + w.toNat)
    simp only [List.foldl_cons, List.length_cons]
    omega

theorem le_foldl_add (sums : List UInt16) (n : Nat) :
    n ≤ sums.foldl (fun n w => n + w.toNat) n := by
  induction sums generalizing n with
  | nil => exact Nat.le_refl n
  | cons w ws ih => exact Nat.le_trans (Nat.le_add_right ..) (ih (n + w.toNat))

/-- What is summed up on the way is no more than the sum. -/
theorem foldl_take_le (sums : List UInt16) (k : Nat) :
    (sums.take k).foldl (fun n w => n + w.toNat) 0 ≤ sums.foldl (fun n w => n + w.toNat) 0 := by
  calc (sums.take k).foldl (fun n w => n + w.toNat) 0
    _ ≤ (sums.drop k).foldl (fun n w => n + w.toNat)
        ((sums.take k).foldl (fun n w => n + w.toNat) 0) := le_foldl_add ..
    _ = sums.foldl (fun n w => n + w.toNat) 0 := by
      rw [← List.foldl_append, List.take_append_drop]

/-- Adding up sums folds their plain sum. -/
theorem ofParts_eq_fold (sums : List UInt16) :
    ofParts sums = fold (sums.foldl (fun n w => n + w.toNat) 0) := by
  have h (n : Nat) : (held n >>= fun m => sums.foldlM (fun n w => accumulate n w.toNat) m) =
      held (sums.foldl (fun n w => n + w.toNat) n) := by
    induction sums generalizing n with
    | nil => exact bind_pure (held n)
    | cons w ws ih =>
      rw [List.foldl_cons, ← ih, ← held_accumulate, bind_assoc]
      simp only [List.foldlM_cons]
  calc ofParts sums
    _ = (held 0 >>= fun m => sums.foldlM (fun n w => accumulate n w.toNat) m) >>= fold := rfl
    _ = fold (sums.foldl (fun n w => n + w.toNat) 0) := by rw [h, held_fold]

/-! ## Folding -/

/-- The sum `n` with its carries folded in, as a word. -/
def folded (n : Nat) : UInt16 :=
  UInt16.ofNat ((n / 65536 + n % 65536) / 65536 + (n / 65536 + n % 65536) % 65536)

theorem fold_eq {n : Nat} (h : n < UInt32.size) : fold n = .ok (folded n) := by
  have hw : (n / 65536 + n % 65536) / 65536 + (n / 65536 + n % 65536) % 65536 < UInt16.size := by
    simp only [UInt32.size, UInt16.size] at *
    omega
  unfold fold folded
  exact if_pos ⟨h, hw⟩

theorem ofOctets_eq {b : Octets} (h : b.length ≤ 131074) :
    ofOctets b = .ok (folded (total 0 b)) := by
  rw [ofOctets_eq_fold]
  exact fold_eq (total_lt h)

theorem ofParts_eq {sums : List UInt16} (h : sums.length ≤ 65537) :
    ofParts sums = .ok (folded (sums.foldl (fun n w => n + w.toNat) 0)) := by
  have := foldl_add_le sums 0
  rw [ofParts_eq_fold]
  exact fold_eq (by simp only [UInt32.size]; omega)

/-! ## The value of a folded sum -/

theorem toNat_folded {n : Nat} (h : n < UInt32.size) :
    (folded n).toNat = if n = 0 then 0 else (n - 1) % 65535 + 1 := by
  have hn : n < 4294967296 := h
  obtain ⟨q, r, hq, hr, rfl⟩ : ∃ q r, q < 65536 ∧ r < 65536 ∧ n = 65536 * q + r :=
    ⟨n / 65536, n % 65536, by omega, by omega, by omega⟩
  have hdiv : (65536 * q + r) / 65536 = q := by omega
  have hmod : (65536 * q + r) % 65536 = r := by omega
  unfold folded
  rw [hdiv, hmod, UInt16.toNat_ofNat']
  by_cases hz : 65536 * q + r = 0
  · obtain ⟨rfl, rfl⟩ : q = 0 ∧ r = 0 := by omega
    rfl
  · have hrem : (65536 * q + r - 1) % 65535 = (q + r - 1) % 65535 := by
      rw [show 65536 * q + r - 1 = 65535 * q + (q + r - 1) by omega, Nat.mul_add_mod]
    rw [if_neg hz, hrem]
    -- The first folding leaves a carry of one at most.
    by_cases hcarry : q + r < 65536
    · have hword : (q + r) / 65536 + (q + r) % 65536 = q + r := by omega
      have hsum : (q + r - 1) % 65535 = q + r - 1 := Nat.mod_eq_of_lt (by omega)
      rw [hword, hsum]
      omega
    · have hword : (q + r) / 65536 + (q + r) % 65536 = q + r - 65535 := by omega
      have hsum : (q + r - 1) % 65535 = q + r - 65536 := by omega
      rw [hword, hsum]
      omega

/-- Sums with the same remainder are folded to the same word, unless one of them is 0. -/
theorem folded_congr {m n : Nat} (hm : m < UInt32.size) (hn : n < UInt32.size)
    (hmod : m % 65535 = n % 65535) (hzero : m = 0 ↔ n = 0) : folded m = folded n := by
  apply UInt16.toNat_inj.mp
  rw [toNat_folded hm, toNat_folded hn]
  by_cases h : m = 0
  · rw [if_pos h, if_pos (hzero.mp h)]
  · have h' : n ≠ 0 := fun hn => h (hzero.mpr hn)
    rw [if_neg h, if_neg h']
    omega

/-- A sum of two parts can be taken of the folded parts. -/
theorem folded_add {m n : Nat} (h : m + n < UInt32.size) :
    folded ((folded m).toNat + (folded n).toNat) = folded (m + n) := by
  have hm : m < UInt32.size := Nat.lt_of_le_of_lt (Nat.le_add_right m n) h
  have hn : n < UInt32.size := Nat.lt_of_le_of_lt (Nat.le_add_left n m) h
  have hm' := (folded m).toNat_lt
  have hn' := (folded n).toNat_lt
  have em := toNat_folded hm
  have en := toNat_folded hn
  refine folded_congr (by simp only [UInt32.size]; omega) h ?_ ?_
  · split at em <;> split at en <;> omega
  · split at em <;> split at en <;> omega

/-- Only ones are left of the multiples of 65535 that are not 0. -/
theorem folded_eq_ones_iff {n : Nat} (h : n < UInt32.size) :
    folded n = 0xffff ↔ n ≠ 0 ∧ n % 65535 = 0 := by
  rw [← UInt16.toNat_inj, toNat_folded h]
  have hones : (0xffff : UInt16).toNat = 65535 := rfl
  rw [hones]
  split <;> omega

@[simp] theorem length_pseudoOctets (src dst : Address) (protocol : Protocol) (length : UInt16) :
    (pseudoOctets src dst protocol length).length = pseudoHeaderLen := rfl

end Checksum

end TcpEngine
