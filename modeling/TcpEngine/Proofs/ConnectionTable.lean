import TcpEngine.ConnectionTable
import TcpEngine.Proofs.SlotMap

/-!
# Records and registrations

What the operations of a connection table do to its records and to its index, on a table whose
slot map is well-formed. None of them faults.

* `put`: one record is replaced; the index stays (`put_eq`, `get?_put`).
* `create_cases`, `close_stale`, `close_live`: a record comes with a registration, and goes with
  the registration of the four-tuple that it has when it goes.
* `clear_eq`: all records go, and their number is the answer.
* `Registers home`: the registrations are those of the live records, each under the four-tuple that
  `home` names for its key. Creating keeps that (`Registers.enroll`); closing keeps it if and only
  if the record has the four-tuple that `home` names (`Registers.drop_iff`).
-/

namespace TcpEngine

namespace ConnectionTable

/-! ## Replacing a record -/

theorem put_eq {t : ConnectionTable} {k : Key} {c₀ : Connection} (hk : t.get? k = some c₀)
    (c : Connection) : t.put k c = { t with records := t.records.store k c } := by
  have h : t.records.get? k = some c₀ := hk
  simp [put, modify, SlotMap.modify_eq, h]

theorem put_stale {t : ConnectionTable} {k : Key} (hk : t.get? k = none) (c : Connection) :
    t.put k c = t := by
  have h : t.records.get? k = none := hk
  simp [put, modify, SlotMap.modify_eq, h]

theorem get?_put {t : ConnectionTable} {k : Key} {c₀ : Connection} (hk : t.get? k = some c₀)
    (c : Connection) (k' : Key) : (t.put k c).get? k' = if k' = k then some c else t.get? k' := by
  rw [put_eq hk]
  exact SlotMap.get?_store hk c k'

/-- Records under different keys are replaced in any order. -/
theorem put_comm {t : ConnectionTable} {k k' : Key} {c₀ c₀' : Connection}
    (hk : t.get? k = some c₀) (hk' : t.get? k' = some c₀') (hne : k ≠ k') (c c' : Connection) :
    (t.put k c).put k' c' = (t.put k' c').put k c := by
  have hput : (t.put k c).get? k' = some c₀' := by rw [get?_put hk, if_neg hne.symm, hk']
  have hput' : (t.put k' c').get? k = some c₀ := by rw [get?_put hk', if_neg hne, hk]
  rw [put_eq hput, put_eq hput', put_eq hk, put_eq hk']
  dsimp only
  rw [SlotMap.store_comm hk hk' hne]

@[simp] theorem index_put (t : ConnectionTable) (k : Key) (c : Connection) :
    (t.put k c).index = t.index := by
  cases hk : t.get? k with
  | none => rw [put_stale hk]
  | some c₀ => rw [put_eq hk]

@[simp] theorem find?_put (t : ConnectionTable) (k : Key) (c : Connection) (src dst : Address)
    (srcPort dstPort : UInt16) :
    (t.put k c).find? src dst srcPort dstPort = t.find? src dst srcPort dstPort := by
  unfold find?
  rw [index_put]

@[simp] theorem nextSeq_put (t : ConnectionTable) (k : Key) (c : Connection) :
    (t.put k c).nextSeq = t.nextSeq := by
  cases hk : t.get? k with
  | none => rw [put_stale hk]
  | some c₀ => rw [put_eq hk]

@[simp] theorem address_put (t : ConnectionTable) (k : Key) (c : Connection) :
    (t.put k c).address = t.address := by
  cases hk : t.get? k with
  | none => rw [put_stale hk]
  | some c₀ => rw [put_eq hk]

@[simp] theorem policy_put (t : ConnectionTable) (k : Key) (c : Connection) :
    (t.put k c).policy = t.policy := by
  cases hk : t.get? k with
  | none => rw [put_stale hk]
  | some c₀ => rw [put_eq hk]

@[simp] theorem len_put (t : ConnectionTable) (k : Key) (c : Connection) :
    (t.put k c).len = t.len := by
  cases hk : t.get? k with
  | none => rw [put_stale hk]
  | some c₀ => rw [put_eq hk]; rfl

/-- The settings that a table was made with and keeps. -/
def settings (t : ConnectionTable) : Address × UInt64 × ChecksumPolicy :=
  (t.address, t.records.capacity, t.policy)

@[simp] theorem settings_put (t : ConnectionTable) (k : Key) (c : Connection) :
    (t.put k c).settings = t.settings := by
  cases hk : t.get? k with
  | none => rw [put_stale hk]
  | some c₀ => rw [put_eq hk]; rfl

/-! ## Creating a record -/

/-- The four-tuple of a connection from a local port to a port of another address. -/
def tupleTo (t : ConnectionTable) (remoteAddr : Address) (remotePort localPort : UInt16) :
    FourTuple :=
  { localAddr := t.address, remoteAddr, localPort, remotePort }

/-- The table with the records `m`, and with the key `k` registered for `u`. -/
def enroll (t : ConnectionTable) (u : FourTuple) (k : Key) (m : SlotMap Connection) :
    ConnectionTable :=
  { t with records := m, index := t.index.insert u k, nextSeq := t.nextSeq.add seqStep }

theorem get?_enroll {t : ConnectionTable} {k : Key} {c : Connection} {m : SlotMap Connection}
    (hm : t.records.Inserted c k m) (u : FourTuple) (k' : Key) :
    (t.enroll u k m).get? k' = if k' = k then some c else t.get? k' :=
  hm.get? k'

theorem find?_enroll (t : ConnectionTable) (u : FourTuple) (k : Key) (m : SlotMap Connection)
    (v : FourTuple) :
    (t.enroll u k m).index.find? v = if v = u then some k else t.index.find? v :=
  Index.find?_insert ..

theorem len_enroll {t : ConnectionTable} {k : Key} {c : Connection} {m : SlotMap Connection}
    (hm : t.records.Inserted c k m) (u : FourTuple) : (t.enroll u k m).len = t.len + 1 :=
  hm.len

/-- A record is not created because its four-tuple is taken, or because there is no room; otherwise
it is inserted and registered. -/
theorem create_cases {t : ConnectionTable} (ht : t.records.WellFormed) (remoteAddr : Address)
    (remotePort localPort : UInt16) :
    let u := t.tupleTo remoteAddr remotePort localPort
    ((∃ k, t.index.find? u = some k) ∧
      t.create remoteAddr remotePort localPort = .ok (.error .notPermitted, t, .present u)) ∨
    (t.index.find? u = none ∧ t.records.capacity.toNat ≤ t.len ∧
      t.create remoteAddr remotePort localPort = .ok (.error .noMemory, t, .noSlot u)) ∨
    (t.index.find? u = none ∧ ∃ k m, t.records.Inserted (.new u t.nextSeq) k m ∧
      t.create remoteAddr remotePort localPort =
        .ok (.ok k, t.enroll u k m, .created u t.nextSeq)) := by
  intro u
  unfold create
  cases hf : t.index.find? u with
  | some k =>
    refine .inl ⟨⟨k, rfl⟩, ?_⟩
    dsimp only [u, tupleTo] at hf
    dsimp only
    rw [hf]
    rfl
  | none =>
    refine .inr ?_
    obtain ⟨hfull, he⟩ | ⟨-, k, m, he, hi⟩ := SlotMap.insert_cases ht (.new u t.nextSeq)
    · refine .inl ⟨rfl, hfull, ?_⟩
      dsimp only [u, tupleTo] at hf he
      dsimp only
      rw [hf, he]
      rfl
    · refine .inr ⟨rfl, k, m, hi, ?_⟩
      dsimp only [u, tupleTo] at hf he
      dsimp only
      rw [hf, he]
      rfl

/-! ## Closing records -/

/-- The table with the records `m`, and without the registration of `u`. -/
def drop (t : ConnectionTable) (u : FourTuple) (m : SlotMap Connection) : ConnectionTable :=
  { t with records := m, index := t.index.erase u }

theorem get?_drop {t : ConnectionTable} {k : Key} {m : SlotMap Connection}
    (hm : t.records.Removed k m) (u : FourTuple) (k' : Key) :
    (t.drop u m).get? k' = if k' = k then none else t.get? k' :=
  hm.get? k'

theorem find?_drop (t : ConnectionTable) (u : FourTuple) (m : SlotMap Connection) (v : FourTuple) :
    (t.drop u m).index.find? v = if v = u then none else t.index.find? v :=
  Index.find?_erase ..

theorem len_drop {t : ConnectionTable} {k : Key} {m : SlotMap Connection}
    (hm : t.records.Removed k m) (u : FourTuple) : (t.drop u m).len + 1 = t.len :=
  hm.len

theorem close_stale {t : ConnectionTable} {k : Key} (hk : t.get? k = none) :
    t.close k = .ok (t, []) := by
  have hr : t.records.remove k = .ok none := SlotMap.remove_stale hk
  unfold close
  rw [hr]
  rfl

theorem close_live {t : ConnectionTable} (ht : t.records.WellFormed) {k : Key} {c : Connection}
    (hk : t.get? k = some c) :
    ∃ m, t.records.Removed k m ∧
      t.close k = .ok (t.drop c.tuple m, [.closed c.tuple c.state]) := by
  obtain ⟨m, hr, hm⟩ := SlotMap.remove_live ht hk
  refine ⟨m, hm, ?_⟩
  unfold close
  rw [hr]
  rfl

theorem closeAll_ok {t : ConnectionTable} (ht : t.records.WellFormed) (ks : List Key) :
    ∃ t' ns, t.closeAll ks = .ok (t', ns) := by
  induction ks generalizing t with
  | nil => exact ⟨t, [], rfl⟩
  | cons k ks ih =>
    unfold closeAll
    cases hk : t.get? k with
    | none =>
      obtain ⟨t', ns, he⟩ := ih ht
      exact ⟨t', ns, by rw [close_stale hk, Except.ok_bind]; dsimp only; rw [he]; rfl⟩
    | some c =>
      obtain ⟨m, hm, hc⟩ := close_live ht hk
      obtain ⟨t', ns, he⟩ := ih (show (t.drop c.tuple m).records.WellFormed from hm.wellFormed)
      exact ⟨t', _, by rw [hc, Except.ok_bind]; dsimp only; rw [he]; rfl⟩

theorem clear_eq {t : ConnectionTable} (ht : t.records.WellFormed) :
    ∃ ns, t.clear = .ok (t.len, ns) := by
  obtain ⟨t', ns, he⟩ := closeAll_ok ht t.records.keys
  refine ⟨ns ++ [.cleared t'.address t.len], ?_⟩
  unfold clear
  dsimp only
  rw [he, ht.length_keys]
  rfl

/-! ## Registrations -/

/-- Under a four-tuple the live key is registered for which `home` names it. -/
def Registers (t : ConnectionTable) (home : Key → Option FourTuple) : Prop :=
  ∀ u k, t.index.find? u = some k ↔ (∃ c, t.get? k = some c) ∧ home k = some u

section

variable {t : ConnectionTable} {home : Key → Option FourTuple} {k : Key} {c : Connection}

theorem Registers.put (h : t.Registers home) (k : Key) (c : Connection) :
    (t.put k c).Registers home := by
  intro u k'
  cases hk : t.get? k with
  | none => rw [put_stale hk]; exact h u k'
  | some c₀ =>
    rw [index_put, h, get?_put hk]
    by_cases e : k' = k
    · subst e; simp [hk]
    · simp [e]

theorem Registers.enroll (h : t.Registers home) {u : FourTuple} {m : SlotMap Connection}
    (hu : t.index.find? u = none) (hm : t.records.Inserted c k m) :
    (t.enroll u k m).Registers fun k' => if k' = k then some u else home k' := by
  intro v k'
  rw [get?_enroll hm, find?_enroll]
  by_cases ek : k' = k
  · subst ek
    by_cases ev : v = u
    · simp [ev]
    · have hnot : t.index.find? v ≠ some k' := fun hf => by
        obtain ⟨⟨c', hc'⟩, -⟩ := (h v k').mp hf
        have hnone : t.get? k' = none := hm.vacant k'.generation
        rw [hnone] at hc'; cases hc'
      simp [ev, hnot, Ne.symm ev]
  · by_cases ev : v = u
    · subst ev
      have hnot : ¬ ((∃ c', t.get? k' = some c') ∧ home k' = some v) := fun hr => by
        rw [(h v k').mpr hr] at hu; cases hu
      simpa [ek, Ne.symm ek] using hnot
    · simpa [ek, ev] using h v k'

/-- Closing a record leaves the registrations right if and only if the record has its four-tuple
still. -/
theorem Registers.drop_iff (h : t.Registers home) {m : SlotMap Connection}
    (hk : t.get? k = some c) (hm : t.records.Removed k m) {u : FourTuple} (hu : home k = some u) :
    (t.drop c.tuple m).Registers home ↔ c.tuple = u := by
  have hself : t.index.find? u = some k := (h u k).mpr ⟨⟨c, hk⟩, hu⟩
  constructor
  · intro h'
    have hnot : (t.drop c.tuple m).index.find? u ≠ some k := fun hf => by
      obtain ⟨⟨c', hc'⟩, -⟩ := (h' u k).mp hf
      rw [get?_drop hm, if_pos rfl] at hc'; cases hc'
    rw [find?_drop, hself] at hnot
    by_cases e : u = c.tuple
    · exact e.symm
    · exact absurd (if_neg e) hnot
  · rintro rfl v k'
    rw [find?_drop, get?_drop hm]
    by_cases ek : k' = k
    · subst ek
      by_cases ev : v = c.tuple
      · simp [ev]
      · have hnot : t.index.find? v ≠ some k' := fun hf => by
          have := ((h v k').mp hf).2
          rw [hu] at this; exact ev (Option.some.inj this).symm
        simp [ev, hnot]
    · by_cases ev : v = c.tuple
      · subst ev
        have hnot : ¬ ((∃ c', t.get? k' = some c') ∧ home k' = some c.tuple) := fun hr => by
          have := (h _ k').mpr hr
          rw [hself] at this; exact ek (Option.some.inj this).symm
        simpa [ek] using hnot
      · simpa [ek, ev] using h v k'

end

end ConnectionTable

end TcpEngine
