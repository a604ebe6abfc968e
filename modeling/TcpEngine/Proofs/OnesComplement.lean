import TcpEngine.Proofs.Detection

/-!
# One's-complement sums

The checksum of a string, or of a list of sums, is one word for each plain sum of words: 0 for the
plain sum 0, and otherwise the word from 1 to 65535 with the same remainder modulo 65535. It depends
on nothing else, so the words may be summed in any order, and in groups of groups.

* `Checksum.Canonical`, `Checksum.canonical_iff`: which word this is, and that there is one only.
* `Checksum.Reduces`: what may be put in the place of a plain sum.
* `Checksum.Grouping`: sums in groups, with groups in them.
* `Checksum.sums_canonical`: the checksums of strings and of lists of sums.
-/

namespace TcpEngine

namespace Checksum

/-! ## The word of a plain sum -/

/-- The word `w` stands for the plain sum `n`: it is 0 for 0, and for any other sum it is the one of
the words from 1 to 65535 that has the same remainder modulo 65535. -/
def Canonical (n : Nat) (w : UInt16) : Prop :=
  if n = 0 then w = 0 else 1 ≤ w.toNat ∧ w.toNat % 65535 = n % 65535

instance (n : Nat) (w : UInt16) : Decidable (Canonical n w) := inferInstanceAs (Decidable (ite ..))

/-- No word but the folded sum stands for a sum, as there is only one representation of zero. -/
theorem canonical_iff {n : Nat} (h : n < UInt32.size) (w : UInt16) :
    Canonical n w ↔ w = folded n := by
  have hw := w.toNat_lt
  have hfolded := toNat_folded h
  unfold Canonical
  by_cases hn : n = 0
  · subst hn
    rfl
  · rw [if_neg hn] at hfolded ⊢
    rw [← UInt16.toNat_inj, hfolded]
    omega

theorem folded_eq_zero_iff {n : Nat} (h : n < UInt32.size) : folded n = 0 ↔ n = 0 := by
  have hfolded := toNat_folded h
  rw [← UInt16.toNat_inj, hfolded, UInt16.toNat_zero]
  split <;> omega

/-! ## What sums are made of -/

/-- The plain sum of words. -/
def plain : List UInt16 → Nat
  | [] => 0
  | w :: ws => w.toNat + plain ws

theorem plain_append (s t : List UInt16) : plain (s ++ t) = plain s + plain t := by
  induction s with
  | nil => exact (Nat.zero_add _).symm
  | cons w ws ih => rw [List.cons_append, plain, ih, plain, Nat.add_assoc]

theorem plain_perm {s t : List UInt16} (h : s.Perm t) : plain s = plain t := by
  induction h with
  | nil => rfl
  | cons w _ ih => rw [plain, ih, plain]
  | swap v w ws => exact Nat.add_left_comm ..
  | trans _ _ ih ih' => exact ih.trans ih'

theorem foldl_eq_plain (sums : List UInt16) (n : Nat) :
    sums.foldl (fun n w => n + w.toNat) n = n + plain sums := by
  induction sums generalizing n with
  | nil => rfl
  | cons w ws ih => rw [List.foldl_cons, ih, plain, Nat.add_assoc]

theorem ofParts_eq_plain (sums : List UInt16) : ofParts sums = fold (plain sums) := by
  rw [ofParts_eq_fold, foldl_eq_plain, Nat.zero_add]

theorem plain_lt {sums : List UInt16} (h : sums.length ≤ 65537) : plain sums < UInt32.size := by
  have hle := foldl_add_le sums 0
  rw [foldl_eq_plain] at hle
  simp only [UInt32.size]
  omega

/-- Only zeros have the sum 0. -/
theorem total_eq_zero_iff (n : Nat) (b : Octets) : total n b = 0 ↔ n = 0 ∧ ∀ x ∈ b, x = 0 := by
  have hzero (x : UInt8) : x = 0 ↔ x.toNat = 0 := UInt8.toNat_inj.symm
  induction n, b using total.induct with
  | case1 n => simp [total]
  | case2 n x =>
    rw [total, List.forall_mem_singleton, hzero]
    omega
  | case3 n x y r ih =>
    have hsum : n + (256 * x.toNat + y.toNat) = 0 ↔ (n = 0 ∧ x.toNat = 0) ∧ y.toNat = 0 := by omega
    rw [List.forall_mem_cons, List.forall_mem_cons, hzero, hzero, ← and_assoc, ← and_assoc, ← hsum]
    exact ih

/-! ## Sums in parts -/

/-- The number `m` may be put in the place of the plain sum `n`: it stands for the same word, and
takes no more room. -/
structure Reduces (n m : Nat) : Prop where
  le : m ≤ n
  mod : m % 65535 = n % 65535
  zero : m = 0 → n = 0

namespace Reduces

variable {n m k n' m' : Nat}

theorem rfl : Reduces n n := ⟨Nat.le_refl n, Eq.refl _, id⟩

theorem trans (h : Reduces n m) (h' : Reduces m k) : Reduces n k :=
  ⟨Nat.le_trans h'.le h.le, h'.mod.trans h.mod, fun hk => h.zero (h'.zero hk)⟩

theorem add (h : Reduces n m) (h' : Reduces n' m') : Reduces (n + n') (m + m') := by
  refine ⟨Nat.add_le_add h.le h'.le, ?_, fun hsum => ?_⟩
  · rw [Nat.add_mod, h.mod, h'.mod, ← Nat.add_mod]
  · obtain ⟨hm, hm'⟩ := Nat.add_eq_zero_iff.mp hsum
    rw [h.zero hm, h'.zero hm']

theorem of_folded (h : n < UInt32.size) : Reduces n (folded n).toNat := by
  have hfolded := toNat_folded h
  constructor
  · split at hfolded <;> omega
  · split at hfolded <;> omega
  · split at hfolded <;> omega

theorem folded_eq (h : Reduces n m) (hn : n < UInt32.size) : folded m = folded n := by
  refine folded_congr (Nat.lt_of_le_of_lt h.le hn) hn h.mod ⟨h.zero, ?_⟩
  rintro rfl
  exact Nat.le_zero.mp h.le

end Reduces

/-- A list of sums of which some stand together in groups, and in groups of groups. -/
inductive Grouping where
  | nil
  | sum (w : UInt16) (rest : Grouping)
  | group (inner rest : Grouping)

namespace Grouping

/-- The sums in their order, without the groups. -/
def sums : Grouping → List UInt16
  | nil => []
  | sum w rest => w :: rest.sums
  | group inner rest => inner.sums ++ rest.sums

/-- The sums with one sum in the place of each group, put together from the inside out. -/
def parts : Grouping → Checked (List UInt16)
  | nil => .ok []
  | sum w rest => do
    let ws ← rest.parts
    return w :: ws
  | group inner rest => do
    let vs ← inner.parts
    let v ← ofParts vs
    let ws ← rest.parts
    return v :: ws

/-- Each group is put together without a fault, and its sum does as well as the group. -/
theorem parts_reduces (g : Grouping) (h : plain g.sums < UInt32.size) :
    ∃ ws, g.parts = .ok ws ∧ Reduces (plain g.sums) (plain ws) := by
  induction g with
  | nil => exact ⟨[], rfl, .rfl⟩
  | sum w rest ih =>
    obtain ⟨ws, hws, hr⟩ := ih (Nat.lt_of_le_of_lt (Nat.le_add_left ..) h)
    refine ⟨w :: ws, ?_, Reduces.rfl.add hr⟩
    rw [parts, hws]
    rfl
  | group inner rest ihi ihr =>
    rw [sums, plain_append] at h ⊢
    obtain ⟨vs, hvs, hi⟩ := ihi (Nat.lt_of_le_of_lt (Nat.le_add_right ..) h)
    obtain ⟨ws, hws, hr⟩ := ihr (Nat.lt_of_le_of_lt (Nat.le_add_left ..) h)
    have hlt : plain vs < UInt32.size :=
      Nat.lt_of_le_of_lt (Nat.le_trans hi.le (Nat.le_add_right ..)) h
    refine ⟨folded (plain vs) :: ws, ?_, (hi.trans (.of_folded hlt)).add hr⟩
    rw [parts, hvs, Except.ok_bind, ofParts_eq_plain, fold_eq hlt, Except.ok_bind, hws]
    rfl

/-- What is left of a grouping has the sum of all that was grouped. -/
theorem ofParts_parts {g : Grouping} (h : plain g.sums < UInt32.size) :
    ∃ parts, g.parts = .ok parts ∧ ofParts parts = ofParts g.sums := by
  obtain ⟨ws, hws, hr⟩ := g.parts_reduces h
  refine ⟨ws, hws, ?_⟩
  rw [ofParts_eq_plain, ofParts_eq_plain, fold_eq h, fold_eq (Nat.lt_of_le_of_lt hr.le h),
    hr.folded_eq h]

end Grouping

/-! ## Checksums -/

theorem ofOctets_canonical {b : Octets} (h : b.length ≤ 131074) :
    ∃ w, ofOctets b = .ok w ∧ (w = 0 ↔ ∀ x ∈ b, x = 0) ∧ ∀ v, Canonical (total 0 b) v ↔ v = w := by
  have hlt := total_lt h
  refine ⟨_, ofOctets_eq h, ?_, canonical_iff hlt⟩
  rw [folded_eq_zero_iff hlt, total_eq_zero_iff]
  exact and_iff_right rfl

theorem ofParts_canonical {sums : List UInt16} (h : sums.length ≤ 65537) :
    ∃ w, ofParts sums = .ok w ∧ ∀ v, Canonical (plain sums) v ↔ v = w := by
  have hlt := plain_lt h
  refine ⟨_, ?_, canonical_iff hlt⟩
  rw [ofParts_eq_plain, fold_eq hlt]

/-- Words do not reach across the end of a string of even length, so what follows may be summed
apart. -/
theorem ofOctets_append {a b : Octets} (ha : a.length % 2 = 0)
    (h : a.length + b.length ≤ 131074) : ∃ u v w, ofOctets a = .ok u ∧ ofOctets b = .ok v ∧
      ofParts [u, v] = .ok w ∧ ofOctets (a ++ b) = .ok w := by
  have hlen : (a ++ b).length ≤ 131074 := by rwa [List.length_append]
  have htotal : total 0 (a ++ b) = total 0 a + total 0 b := by
    rw [total_append ha, total_eq_add]
  have hlt : total 0 a + total 0 b < UInt32.size := htotal ▸ total_lt hlen
  refine ⟨_, _, _, ofOctets_eq (by omega), ofOctets_eq (by omega), ofParts_eq (by simp), ?_⟩
  rw [ofOctets_eq hlen, htotal, foldl_eq_plain, Nat.zero_add]
  exact congrArg _ (folded_add hlt).symm

/-- The checksum of a string that is not too long is computed without an overflow. It is 0 if all
octets are, and else the one word that stands for the plain sum of the big-endian words of the
string, where an octet behind the end counts as zero. That of a list of sums which is not too long
is the word that stands for their plain sum. So a string of even length and what follows it may be
summed apart and then put together, and sums be put together in any order and in any groups. -/
theorem sums_canonical :
    (∀ b : Octets, b.length ≤ 131074 → ∃ w, ofOctets b = .ok w ∧ (w = 0 ↔ ∀ x ∈ b, x = 0) ∧
      ∀ v, Canonical (∑ i ∈ Finset.range ((b.length + 1) / 2), (b.word i).toNat) v ↔ v = w) ∧
    (∀ sums : List UInt16, sums.length ≤ 65537 → ∃ w, ofParts sums = .ok w ∧
      ∀ v, Canonical (plain sums) v ↔ v = w) ∧
    (∀ a b : Octets, a.length % 2 = 0 → a.length + b.length ≤ 131074 → ∃ u v w,
      ofOctets a = .ok u ∧ ofOctets b = .ok v ∧ ofParts [u, v] = .ok w ∧
        ofOctets (a ++ b) = .ok w) ∧
    (∀ sums sums' : List UInt16, sums.Perm sums' → ofParts sums = ofParts sums') ∧
    ∀ g : Grouping, g.sums.length ≤ 65537 →
      ∃ parts, g.parts = .ok parts ∧ ofParts parts = ofParts g.sums := by
  refine ⟨fun b hb => ?_, fun _ => ofParts_canonical, fun _ _ => ofOctets_append,
    fun sums sums' hp => ?_, fun g hg => Grouping.ofParts_parts (plain_lt hg)⟩
  · have hsum := total_eq_sum 0 b
    rw [Nat.zero_add] at hsum
    rw [← hsum]
    exact ofOctets_canonical hb
  · rw [ofParts_eq_plain, ofParts_eq_plain, plain_perm hp]

/-- Two chunks of ones with a rest of odd length behind them, two sums with a carry, and a group in
which there are a sum, an empty group and another sum. -/
theorem sums_canonical_carries : ∃ (a b : Octets) (g : Grouping),
    a = List.replicate 64 0xff ∧ b = [0x00, 0x02, 0xab] ∧
    g = .group (.sum 0x8000 (.group .nil (.sum 0x8001 .nil))) (.sum 0x0001 .nil) ∧
    ((a ++ b).length ≤ 131074 ∧ ofOctets (a ++ b) = .ok 0xab02) ∧
    (([0xffff, 0x0001] : List UInt16).length ≤ 65537 ∧ ofParts [0xffff, 0x0001] = .ok 0x0001) ∧
    (a.length % 2 = 0 ∧ a.length + b.length ≤ 131074 ∧ ∃ u v,
      ofOctets a = .ok u ∧ ofOctets b = .ok v ∧ ofParts [u, v] = .ok 0xab02) ∧
    (([0x0001, 0xffff] : List UInt16).Perm [0xffff, 0x0001] ∧
      ofParts [0x0001, 0xffff] = .ok 0x0001) ∧
    g.sums.length ≤ 65537 ∧
    ∃ parts, g.parts = .ok parts ∧ ofParts parts = ofParts [0x8000, 0x8001, 0x0001] := by
  obtain ⟨hoctets, hparts, happend, hperm, hgroups⟩ := sums_canonical
  obtain ⟨a, ha⟩ : ∃ a : Octets, a = List.replicate 64 0xff := ⟨_, rfl⟩
  obtain ⟨b, hb⟩ : ∃ b : Octets, b = [0x00, 0x02, 0xab] := ⟨_, rfl⟩
  have hlens : a.length + b.length ≤ 131074 := by subst ha hb; decide
  have hlen : (a ++ b).length ≤ 131074 := by rwa [List.length_append]
  have heven : a.length % 2 = 0 := by subst ha; decide
  have hwhole : ofOctets (a ++ b) = .ok 0xab02 := by
    obtain ⟨w, hw, -, hcanonical⟩ := hoctets (a ++ b) hlen
    rw [hw, (hcanonical 0xab02).mp (by subst ha hb; decide +kernel)]
  have hcarry : ofParts [0xffff, 0x0001] = .ok 0x0001 := by
    obtain ⟨w, hw, hcanonical⟩ := hparts [0xffff, 0x0001] (by decide)
    rw [hw, (hcanonical 0x0001).mp (by decide)]
  obtain ⟨u, v, w, hu, hv, hw, happ⟩ := happend a b heven hlens
  rw [hwhole] at happ
  cases happ
  have hswap : ([0x0001, 0xffff] : List UInt16).Perm [0xffff, 0x0001] := .swap ..
  exact ⟨a, b, _, ha, hb, rfl, ⟨hlen, hwhole⟩, ⟨by decide, hcarry⟩,
    ⟨heven, hlens, u, v, hu, hv, hw⟩, ⟨hswap, (hperm _ _ hswap).trans hcarry⟩, by decide,
    hgroups _ (by decide)⟩

/-- The example of RFC 1071. -/
example : ofOctets [0x00, 0x01, 0xf2, 0x03, 0xf4, 0xf5, 0xf6, 0xf7] = .ok 0xddf2 := by decide

end Checksum

end TcpEngine
