import TcpEngine.Proofs.KeySafety
import TcpEngine.Proofs.Registry
import TcpEngine.Proofs.Vacancies

/-!
# Records that are closed right after they were created

A record is created and closed again. Two things remain of it: the next generation and the next
initial sequence number are one further than they would be. The free list is in the same order
again, although there may be one more slot.

* `ConnectionTable.Ahead`: a table that is further than another by such a record, and nothing else.
  Creating a record in both (`Ahead.create`) and closing the records of matched keys (`Ahead.close`)
  keep that.
* `History.Issued`: as long as there are generations, every key has a lower one than the counter.
* `Host.Fit`: keys held for the two hosts that are good for given errands. Stale keys are, as long
  as there are generations; else a key is good for one use.
* `Host.create_close_invisible`: after any run, a record that is closed right after it was created
  leaves everything as it was, and later creations go as they would without it.
-/

namespace TcpEngine

namespace ConnectionTable

variable {t t' t₂ t₂' : ConnectionTable} {k k₂ q q₂ : Key} {c : Connection} {u : FourTuple}

/-! ## What is done to the slot map -/

theorem insert_of_create {remoteAddr : Address} {remotePort localPort : UInt16} {n : Note}
    (h : t.create remoteAddr remotePort localPort = .ok (.ok k, t', n)) :
    t.records.insert (.new (t.tupleTo remoteAddr remotePort localPort) t.nextSeq) =
      .ok (some (k, t'.records)) := by
  unfold create at h
  dsimp only at h
  split at h
  · cases h
  · obtain ⟨_ | ⟨k', m⟩, hi, h⟩ := Except.bind_eq_ok.mp h
    · cases h
    · cases h
      exact hi

theorem remove_of_close {ns : List Note} (hk : t.get? k = some c) (h : t.close k = .ok (t', ns)) :
    t.records.remove k = .ok (some (c, t'.records)) := by
  obtain ⟨r, hr, h⟩ := Except.bind_eq_ok.mp h
  have hk' : t.records.get? k = some c := hk
  have hr' := hr
  unfold SlotMap.remove at hr'
  rw [hk'] at hr'
  obtain ⟨len, -, hr'⟩ := Except.bind_eq_ok.mp hr'
  cases hr'
  cases h
  exact hr

/-! ## Tables with and without one more creation -/

/-- The table `t₂` is further than `t` by a record that was created and closed again. -/
structure Ahead (t t₂ : ConnectionTable) : Prop where
  wellFormed : t.records.WellFormed
  wellFormed' : t₂.records.WellFormed
  address : t₂.address = t.address
  capacity : t₂.records.capacity = t.records.capacity
  len : t₂.len = t.len
  taken : ∀ u, (t₂.index.find? u).isSome = (t.index.find? u).isSome
  /-- New records take the same slots in the same order. -/
  order : ∃ s, t.records.Fills s ∧ t₂.records.Fills s
  generation : t₂.records.generation = SlotMap.nextGeneration t.records.generation
  nextSeq : t₂.nextSeq = t.nextSeq.add seqStep

/-- The table `t'` is `t` with a new record for `u` under the key `k`. -/
structure Newborn (t : ConnectionTable) (u : FourTuple) (k : Key) (t' : ConnectionTable) :
    Prop where
  inserted : t.records.Inserted (.new u t.nextSeq) k t'.records
  generation : t'.records.generation = SlotMap.nextGeneration t.records.generation

theorem Newborn.get? (h : t.Newborn u k t') (q : Key) :
    t'.get? q = if q = k then some (.new u t.nextSeq) else t.get? q :=
  h.inserted.get? q

/-- The key is not that of a record that was there before. -/
theorem Newborn.ne (h : t.Newborn u k t') (hq : t.get? q = some c) : q ≠ k := by
  rintro rfl
  have hnone : t.get? q = none := h.inserted.vacant q.generation
  rw [hnone] at hq
  cases hq

/-- Live keys of the two tables for one slot and one four-tuple. -/
structure Matched (t t₂ : ConnectionTable) (k k₂ : Key) : Prop where
  index : k₂.index = k.index
  live : ∃ c c₂, t.get? k = some c ∧ t₂.get? k₂ = some c₂ ∧ c₂.tuple = c.tuple

theorem Matched.newborn (h : t.Newborn u k t') (h₂ : t₂.Newborn u k₂ t₂')
    (hi : k₂.index = k.index) : t'.Matched t₂' k k₂ :=
  ⟨hi, .new u t.nextSeq, .new u t₂.nextSeq, by rw [h.get?, if_pos rfl],
    by rw [h₂.get?, if_pos rfl], rfl⟩

theorem Matched.create (hq : t.Matched t₂ q q₂) (h : t.Newborn u k t')
    (h₂ : t₂.Newborn u k₂ t₂') : t'.Matched t₂' q q₂ := by
  obtain ⟨hi, c, c₂, hc, hc₂, hu⟩ := hq
  exact ⟨hi, c, c₂, by rw [h.get?, if_neg (h.ne hc), hc], by rw [h₂.get?, if_neg (h₂.ne hc₂), hc₂],
    hu⟩

/-- Matched keys are the same in one table if and only if they are in the other. -/
theorem Matched.eq_iff (hk : t.Matched t₂ k k₂) (hq : t.Matched t₂ q q₂) : q = k ↔ q₂ = k₂ := by
  obtain ⟨hi, c, c₂, hc, hc₂, -⟩ := hk
  obtain ⟨hj, d, d₂, hd, hd₂, -⟩ := hq
  constructor
  · rintro rfl
    exact SlotMap.key_eq_of_index hd₂ hc₂ (hj.trans hi.symm)
  · rintro rfl
    exact SlotMap.key_eq_of_index hd hc (hj.symm.trans hi)

/-- After the records of matched keys are removed, other matched keys are matched still. -/
theorem Matched.close (hq : t.Matched t₂ q q₂) (hk : t.Matched t₂ k k₂) (hne : q ≠ k)
    (hm : t.records.Removed k t'.records) (hm₂ : t₂.records.Removed k₂ t₂'.records) :
    t'.Matched t₂' q q₂ := by
  have hne₂ : q₂ ≠ k₂ := fun e => hne ((hk.eq_iff hq).mpr e)
  obtain ⟨hi, c, c₂, hc, hc₂, hu⟩ := hq
  exact ⟨hi, c, c₂, (hm.get? q).trans ((if_neg hne).trans hc),
    (hm₂.get? q₂).trans ((if_neg hne₂).trans hc₂), hu⟩

/-- A record is created in both tables or in none of them, with the same error. -/
theorem Ahead.create (h : t.Ahead t₂) (remoteAddr : Address) (remotePort localPort : UInt16) :
    (∃ e n n₂, t.create remoteAddr remotePort localPort = .ok (.error e, t, n) ∧
      t₂.create remoteAddr remotePort localPort = .ok (.error e, t₂, n₂)) ∨
    ∃ u k k₂ t' t₂' n n₂, t.create remoteAddr remotePort localPort = .ok (.ok k, t', n) ∧
      t₂.create remoteAddr remotePort localPort = .ok (.ok k₂, t₂', n₂) ∧ t.Newborn u k t' ∧
      t₂.Newborn u k₂ t₂' ∧ k₂.index = k.index ∧ t'.Ahead t₂' := by
  have hu : t₂.tupleTo remoteAddr remotePort localPort =
      t.tupleTo remoteAddr remotePort localPort := by
    unfold tupleTo
    rw [h.address]
  have htaken := h.taken (t.tupleTo remoteAddr remotePort localPort)
  have hcases := create_cases h.wellFormed remoteAddr remotePort localPort
  have hcases₂ := create_cases h.wellFormed' remoteAddr remotePort localPort
  rw [hu] at hcases₂
  obtain ⟨⟨k, hf⟩, he⟩ | ⟨hf, hfull, he⟩ | ⟨hf, k, m, hm, he⟩ := hcases
  · obtain ⟨-, he₂⟩ | ⟨hf₂, -⟩ | ⟨hf₂, -⟩ := hcases₂
    · exact .inl ⟨_, _, _, he, he₂⟩
    · simp [hf, hf₂] at htaken
    · simp [hf, hf₂] at htaken
  · obtain ⟨⟨k₂, hf₂⟩, -⟩ | ⟨-, -, he₂⟩ | ⟨-, k₂, m₂, hm₂, -⟩ := hcases₂
    · simp [hf, hf₂] at htaken
    · exact .inl ⟨_, _, _, he, he₂⟩
    · have hroom := hm₂.wellFormed.room
      have hlen : t₂.records.len = t.records.len := h.len
      have hfull' : t.records.capacity.toNat ≤ t.records.len := hfull
      rw [hm₂.len, hm₂.capacity, h.capacity, hlen] at hroom
      omega
  · obtain ⟨⟨k₂, hf₂⟩, -⟩ | ⟨-, hfull₂, -⟩ | ⟨-, k₂, m₂, hm₂, he₂⟩ := hcases₂
    · simp [hf, hf₂] at htaken
    · have hroom := hm.wellFormed.room
      have hlen : t₂.records.len = t.records.len := h.len
      have hfull' : t₂.records.capacity.toNat ≤ t₂.records.len := hfull₂
      rw [hm.len, hm.capacity] at hroom
      rw [h.capacity, hlen] at hfull'
      omega
    · obtain ⟨s, hs, hs₂⟩ := h.order
      have hins := insert_of_create he
      have hins₂ := insert_of_create he₂
      obtain ⟨hk, hs⟩ := hs.insert hins
      obtain ⟨hk₂, hs₂⟩ := hs₂.insert hins₂
      have hgen := SlotMap.generation_insert hins
      have hgen₂ := SlotMap.generation_insert hins₂
      refine .inr ⟨_, k, k₂, _, _, _, _, he, he₂, ⟨hm, hgen⟩, ⟨hm₂, hgen₂⟩, hk₂.trans hk.symm,
        hm.wellFormed, hm₂.wellFormed, h.address, ?_, ?_, fun v => ?_, ⟨_, hs, hs₂⟩, ?_, ?_⟩
      · exact hm₂.capacity.trans (h.capacity.trans hm.capacity.symm)
      · rw [len_enroll hm, len_enroll hm₂, h.len]
      · rw [find?_enroll, find?_enroll]
        split
        · rfl
        · exact h.taken v
      · rw [hgen, hgen₂, h.generation]
      · show t₂.nextSeq.add seqStep = (t.nextSeq.add seqStep).add seqStep
        rw [h.nextSeq]

/-- The records of matched keys are closed in both tables. -/
theorem Ahead.close (h : t.Ahead t₂) (hk : t.Matched t₂ k k₂) : ∃ t' t₂' ns ns₂,
    t.close k = .ok (t', ns) ∧ t₂.close k₂ = .ok (t₂', ns₂) ∧
      t.records.Removed k t'.records ∧ t₂.records.Removed k₂ t₂'.records ∧ t'.Ahead t₂' := by
  obtain ⟨hi, c, c₂, hc, hc₂, hu⟩ := hk
  obtain ⟨m, hm, he⟩ := close_live h.wellFormed hc
  obtain ⟨m₂, hm₂, he₂⟩ := close_live h.wellFormed' hc₂
  obtain ⟨s, hs, hs₂⟩ := h.order
  have hs := hs.remove (remove_of_close hc he)
  have hs₂ := hs₂.remove (remove_of_close hc₂ he₂)
  rw [hi] at hs₂
  refine ⟨_, _, _, _, he, he₂, hm, hm₂, hm.wellFormed, hm₂.wellFormed, h.address, ?_, ?_,
    fun v => ?_, ⟨_, hs, hs₂⟩, ?_, h.nextSeq⟩
  · exact hm₂.capacity.trans (h.capacity.trans hm.capacity.symm)
  · have hlen := len_drop hm c.tuple
    have hlen₂ := len_drop hm₂ c₂.tuple
    have := h.len
    omega
  · rw [find?_drop, find?_drop, hu]
    split
    · rfl
    · exact h.taken v
  · exact hm₂.generation.trans (h.generation.trans (congrArg _ hm.generation.symm))

/-- A record that is closed right after it was created. -/
theorem close_create (ht : t.records.WellFormed) {remoteAddr : Address}
    {remotePort localPort : UInt16} {n : Note}
    (h : t.create remoteAddr remotePort localPort = .ok (.ok k, t', n)) :
    ∃ t₂ ns, t'.close k = .ok (t₂, ns) ∧ t.Ahead t₂ ∧ t.get? k = none ∧
      (∀ q, t₂.get? q = t.get? q) ∧ ∀ v, t₂.index.find? v = t.index.find? v := by
  obtain ⟨-, he⟩ | ⟨-, -, he⟩ | ⟨hf, k', m, hm, he⟩ :=
    create_cases ht remoteAddr remotePort localPort
  · cases h.symm.trans he
  · cases h.symm.trans he
  · cases h.symm.trans he
    obtain ⟨s, hs⟩ := ht.fills
    obtain ⟨hki, hs'⟩ := hs.insert (insert_of_create h)
    have hk : (t.enroll (t.tupleTo remoteAddr remotePort localPort) k m).get? k =
        some (.new (t.tupleTo remoteAddr remotePort localPort) t.nextSeq) := by
      rw [get?_enroll hm, if_pos rfl]
    obtain ⟨m₂, hm₂, hc⟩ := close_live
      (show (t.enroll (t.tupleTo remoteAddr remotePort localPort) k m).records.WellFormed from
        hm.wellFormed) hk
    have hs₂ := hs'.remove (remove_of_close hk hc)
    have hfind (v : FourTuple) : ((t.enroll (t.tupleTo remoteAddr remotePort localPort) k m).drop
        (t.tupleTo remoteAddr remotePort localPort) m₂).index.find? v = t.index.find? v := by
      rw [find?_drop, find?_enroll]
      split
      · rename_i e
        rw [e, hf]
      · rfl
    refine ⟨_, _, hc, ⟨ht, hm₂.wellFormed, rfl, hm₂.capacity.trans hm.capacity, ?_, fun v => ?_,
      ⟨s, hs, ?_⟩, ?_, rfl⟩, hm.vacant k.generation, fun q => ?_, hfind⟩
    · have hlen := len_drop hm₂ (t.tupleTo remoteAddr remotePort localPort)
      have hlen' := len_enroll hm (t.tupleTo remoteAddr remotePort localPort)
      exact Nat.succ.inj (hlen.trans hlen')
    · rw [← hfind v]
      rfl
    · convert hs₂ using 1
      funext i
      cases i with
      | zero => exact hki.symm
      | succ i => rfl
    · exact hm₂.generation.trans (SlotMap.generation_insert (insert_of_create h))
    · have hg := (get?_drop hm₂ (t.tupleTo remoteAddr remotePort localPort) q).trans
        (congrArg (fun r => if q = k then none else r) (get?_enroll hm _ q))
      refine hg.trans ?_
      split
      · rename_i e
        rw [e]
        exact (hm.vacant k.generation).symm
      · rfl

end ConnectionTable

/-! ## Generations in a run -/

namespace History

variable {α ν : Type}

/-- The generations are counted from 1, and each key has that of its creation. -/
structure Issued (log : History α ν) (t : ConnectionTable) : Prop where
  generation : creates log < UInt64.size - 1 → t.records.generation.toNat = creates log + 1
  lower : creates log < UInt64.size - 1 → ∀ k, createdAs log k ≠ none →
    k.generation.toNat ≤ creates log

/-- A call without a new record leaves the counter alone. -/
theorem Issued.keep {log : History α ν} {e : Entry α ν} {t : ConnectionTable}
    (h : Issued log e.before.table) (hc : e.created? = none)
    (hg : t.records.generation = e.before.table.records.generation) : Issued (e :: log) t := by
  have hcreates : creates (e :: log) = creates log := by
    rw [creates_cons, hc]
    rfl
  refine ⟨?_, ?_⟩
  · rw [hcreates, hg]
    exact h.generation
  · rw [hcreates, createdAs_other hc]
    exact h.lower

theorem Issued.step [Arena α] [Network ν] {log : History α ν} {h h' : Host α ν} {c : Call α ν}
    {a : Answer} (hi : Issued log h.table) (he : h.call c = .ok (a, h'))
    (hf : (Entry.mk h c a).Effect h'.table) : Issued (⟨h, c, a⟩ :: log) h'.table := by
  generalize ht : h'.table = t at hf
  cases hf with
  | @created k u m hc hd hu hm =>
    have hcreates : creates (⟨h, c, a⟩ :: log) = creates log + 1 := by
      rw [creates_cons, hc]
      rfl
    have hgen : h'.table.records.generation =
        SlotMap.nextGeneration h.table.records.generation := by
      unfold Entry.created? at hc
      split at hc
      · rename_i hcall ha
        dsimp only at hcall ha
        subst hcall ha
        obtain ⟨⟨a, g⟩, hg, he⟩ := Except.bind_eq_ok.mp he
        obtain ⟨⟨a, t₁, n⟩, hcr, hg⟩ := Except.bind_eq_ok.mp hg
        cases hg
        cases he
        exact SlotMap.generation_insert (ConnectionTable.insert_of_create hcr)
      · cases hc
    rw [ht] at hgen
    refine ⟨fun hlt => ?_, fun hlt q hq => ?_⟩
    · have := hi.generation (by omega)
      rw [hgen, SlotMap.toNat_nextGeneration (by omega)]
      omega
    · have := hi.generation (by omega)
      rw [createdAs_created hc] at hq
      split at hq
      · rename_i hqk
        have hkg : k.generation = h.table.records.generation := hm.generation
        rw [hqk, hkg]
        omega
      · have := hi.lower (by omega) q hq
        omega
  | closed hc _ _ hm => exact hi.keep hc hm.generation
  | replaced hc _ hk _ =>
    refine hi.keep hc ?_
    rw [ConnectionTable.put_eq hk]
    rfl
  | kept hc _ => exact hi.keep hc rfl

end History

namespace Host

variable {α ν : Type}

theorem run_issued [Arena α] [Network ν] (cfg : Config) (arena : α) (network : ν)
    (cs : List (Call α ν)) : ∃ log h, (start cfg arena network).run cs = .ok (log, h) ∧
      History.Sound log h.table ∧ History.Issued log h.table := by
  have hstart : History.Issued ([] : History α ν) (.new cfg) :=
    ⟨fun _ => rfl, fun _ k hk => absurd rfl hk⟩
  refine run_induction ⟨History.sound_start cfg, hstart⟩ fun log h c _ ⟨hs, hi⟩ => ?_
  obtain ⟨a, h', he, hf⟩ := call_effect hs.wellFormed c
  exact ⟨a, h', he, hs.step hf, hi.step he hf⟩

end Host

/-! ## Errands -/

/-- A creation, or a closing by the key that a creation gave. -/
inductive Errand where
  | create (remoteAddr : Address) (remotePort localPort : UInt16)
  /-- The record of the `n`-th key that is held is closed, from 0. -/
  | close (n : Nat)

namespace Errand

/-- Which key is used. -/
def key? : Errand → Option Nat
  | .create .. => none
  | .close n => some n

/-- How many records are created, if all can be. -/
def creations (ds : List Errand) : Nat := ds.countP fun d => d.key?.isNone

/-- Which keys are used, one after the other. -/
def closings (ds : List Errand) : List Nat := ds.filterMap key?

end Errand

namespace Host

variable {α ν : Type}

/-- An errand. The keys of new records are put behind those that are held. -/
def perform (r : List Key × Host α ν) : Errand → Checked (List Key × Host α ν)
  | .create remoteAddr remotePort localPort => do
    match ← r.2.create remoteAddr remotePort localPort with
    | (.ok k, h) => return (r.1 ++ [k], h)
    | (.error _, h) => return (r.1, h)
  | .close n => match r.1[n]? with
    | none => .ok r
    | some k => do
      let h ← r.2.close k
      return (r.1, h)

/-- The errands one after the other. -/
def performAll (r : List Key × Host α ν) (ds : List Errand) : Checked (List Key × Host α ν) :=
  ds.foldlM perform r

theorem perform_created {h : Host α ν} {remoteAddr : Address} {remotePort localPort : UInt16}
    {k : Key} {t : ConnectionTable} {n : Note}
    (he : h.table.create remoteAddr remotePort localPort = .ok (.ok k, t, n)) (ks : List Key) :
    perform (ks, h) (.create remoteAddr remotePort localPort) =
      .ok (ks ++ [k], { h with table := t }.note n) := by
  unfold perform
  dsimp only
  rw [create_eq he]
  rfl

theorem perform_refused {h : Host α ν} {remoteAddr : Address} {remotePort localPort : UInt16}
    {e : Error} {t : ConnectionTable} {n : Note}
    (he : h.table.create remoteAddr remotePort localPort = .ok (.error e, t, n)) (ks : List Key) :
    perform (ks, h) (.create remoteAddr remotePort localPort) =
      .ok (ks, { h with table := t }.note n) := by
  unfold perform
  dsimp only
  rw [create_eq he]
  rfl

theorem perform_closed {h : Host α ν} {ks : List Key} {m : Nat} {k : Key} {t : ConnectionTable}
    {ns : List Note} (hk : ks[m]? = some k) (he : h.table.close k = .ok (t, ns)) :
    perform (ks, h) (.close m) = .ok (ks, { h with table := t }.notes ns) := by
  unfold perform
  dsimp only
  rw [hk]
  dsimp only
  rw [close_eq he]
  rfl

/-! ## Errands for two hosts -/

/-- Keys of which neither has a record. -/
structure Spent (t t₂ : ConnectionTable) (p : Key × Key) : Prop where
  stale : t.get? p.1 = none
  stale' : t₂.get? p.2 = none

/-- Keys with lower generations than the counters. -/
structure Lower (t t₂ : ConnectionTable) (p : Key × Key) : Prop where
  lower : p.1.generation.toNat < t.records.generation.toNat
  lower' : p.2.generation.toNat < t₂.records.generation.toNat

/-- Keys that are held for two tables, and the errands that are still to be done with them. -/
inductive Fit (t t₂ : ConnectionTable) (ps : List (Key × Key)) (ds : List Errand) : Prop
  /-- There are generations for all creations, so that no key comes back. -/
  | lasting : t.records.generation.toNat + 1 + Errand.creations ds < UInt64.size →
    (∀ p ∈ ps, t.Matched t₂ p.1 p.2 ∨ Spent t t₂ p) → (∀ p ∈ ps, Lower t t₂ p) → Fit t t₂ ps ds
  /-- Each key is used once. -/
  | once : (Errand.closings ds).Nodup →
    (∀ n ∈ Errand.closings ds, ∀ p, ps[n]? = some p → t.Matched t₂ p.1 p.2) →
    (∀ n ∈ Errand.closings ds, ∀ m ∈ Errand.closings ds, ∀ p q, ps[n]? = some p →
      ps[m]? = some q → p.1 = q.1 → n = m) → Fit t t₂ ps ds

section

variable {t t' t₂ t₂' : ConnectionTable} {ps : List (Key × Key)} {ds : List Errand} {k k₂ : Key}
  {u : FourTuple} {remoteAddr : Address} {remotePort localPort : UInt16}

theorem Fit.refused (hf : Fit t t₂ ps (.create remoteAddr remotePort localPort :: ds)) :
    Fit t t₂ ps ds := by
  cases hf with
  | lasting hlast hps hlow =>
    refine .lasting ?_ hps hlow
    simp only [Errand.creations, List.countP_cons] at hlast ⊢
    omega
  | once hnd hps hdist => exact .once hnd hps hdist

/-- The new keys are held too. -/
theorem Fit.created (hf : Fit t t₂ ps (.create remoteAddr remotePort localPort :: ds))
    (ha : t.Ahead t₂) (h : t.Newborn u k t') (h₂ : t₂.Newborn u k₂ t₂')
    (hi : k₂.index = k.index) : Fit t' t₂' (ps ++ [(k, k₂)]) ds := by
  have hnew : t'.Matched t₂' k k₂ := .newborn h h₂ hi
  cases hf with
  | lasting hlast hps hlow =>
    have hcreations : Errand.creations (.create remoteAddr remotePort localPort :: ds) =
        Errand.creations ds + 1 := by
      simp [Errand.creations, Errand.key?]
    rw [hcreations] at hlast
    have hg₂ : t₂.records.generation.toNat = t.records.generation.toNat + 1 := by
      rw [ha.generation, SlotMap.toNat_nextGeneration (by omega)]
    have hg' : t'.records.generation.toNat = t.records.generation.toNat + 1 := by
      rw [h.generation, SlotMap.toNat_nextGeneration (by omega)]
    have hg₂' : t₂'.records.generation.toNat = t₂.records.generation.toNat + 1 := by
      rw [h₂.generation, SlotMap.toNat_nextGeneration (by omega)]
    refine .lasting (by omega) (fun p hp => ?_) fun p hp => ?_
    · rcases List.mem_append.mp hp with hp | hp
      · have hl := hlow p hp
        rcases hps p hp with hm | hs
        · exact .inl (hm.create h h₂)
        · -- A stale key is not the new one, since its generation is lower.
          have hne : p.1 ≠ k := fun e => by
            have := hl.lower
            rw [e, h.inserted.generation] at this
            omega
          have hne₂ : p.2 ≠ k₂ := fun e => by
            have := hl.lower'
            rw [e, h₂.inserted.generation] at this
            omega
          exact .inr ⟨by rw [h.get?, if_neg hne, hs.stale], by rw [h₂.get?, if_neg hne₂, hs.stale']⟩
      · cases List.mem_singleton.mp hp
        exact .inl hnew
    · rcases List.mem_append.mp hp with hp | hp
      · have hl := hlow p hp
        exact ⟨Nat.lt_of_lt_of_le hl.lower (by omega), Nat.lt_of_lt_of_le hl.lower' (by omega)⟩
      · cases List.mem_singleton.mp hp
        have hk := h.inserted.generation
        have hk₂ := h₂.inserted.generation
        exact ⟨by rw [hk]; omega, by rw [hk₂]; omega⟩
  | once hnd hps hdist =>
    have hold {n : Nat} {p : Key × Key} (hn : (ps ++ [(k, k₂)])[n]? = some p) :
        ps[n]? = some p ∨ n = ps.length ∧ p = (k, k₂) := by
      rw [List.getElem?_append] at hn
      split at hn
      · exact .inl hn
      · rw [List.getElem?_singleton] at hn
        split at hn
        · cases hn
          exact .inr ⟨by omega, rfl⟩
        · cases hn
    have hne {n : Nat} {p : Key × Key} (hc : n ∈ Errand.closings ds) (hn : ps[n]? = some p) :
        p.1 ≠ k := by
      obtain ⟨-, c, c₂, hp, -⟩ := hps n hc p hn
      exact h.ne hp
    refine .once hnd (fun n hc p hn => ?_) fun n hc m hm p q hn hq e => ?_
    · rcases hold hn with hn | ⟨-, rfl⟩
      · exact (hps n hc p hn).create h h₂
      · exact hnew
    · rcases hold hn with hn | ⟨rfl, rfl⟩
      · rcases hold hq with hq | ⟨-, rfl⟩
        · exact hdist n hc m hm p q hn hq e
        · exact absurd e (hne hc hn)
      · rcases hold hq with hq | ⟨rfl, -⟩
        · exact absurd e.symm (hne hm hq)
        · rfl

/-- A key that is used is matched, or stale in both tables. -/
theorem Fit.use {n : Nat} {p : Key × Key} (hf : Fit t t₂ ps (.close n :: ds))
    (hn : ps[n]? = some p) : t.Matched t₂ p.1 p.2 ∨ Spent t t₂ p := by
  cases hf with
  | lasting _ hps _ => exact hps p (List.mem_of_getElem? hn)
  | once _ hps _ => exact .inl (hps n (List.mem_cons_self ..) p hn)

theorem Fit.idle {n : Nat} (hf : Fit t t₂ ps (.close n :: ds)) : Fit t t₂ ps ds := by
  cases hf with
  | lasting hlast hps hlow => exact .lasting hlast hps hlow
  | once hnd hps hdist =>
    exact .once (List.nodup_cons.mp hnd).2 (fun m hm => hps m (List.mem_cons_of_mem _ hm))
      fun m hm m' hm' => hdist m (List.mem_cons_of_mem _ hm) m' (List.mem_cons_of_mem _ hm')

theorem Fit.closed {n : Nat} {p : Key × Key} (hf : Fit t t₂ ps (.close n :: ds))
    (hn : ps[n]? = some p) (hp : t.Matched t₂ p.1 p.2) (hm : t.records.Removed p.1 t'.records)
    (hm₂ : t₂.records.Removed p.2 t₂'.records) : Fit t' t₂' ps ds := by
  cases hf with
  | lasting hlast hps hlow =>
    have hlast' : t.records.generation.toNat + 1 + Errand.creations ds < UInt64.size := hlast
    refine .lasting (by rw [hm.generation]; exact hlast') (fun q hq => ?_) fun q hq => ?_
    · have hget := hm.get? q.1
      have hget₂ := hm₂.get? q.2
      rcases hps q hq with hq | hq
      · by_cases e : q.1 = p.1
        · have e₂ := (hp.eq_iff hq).mp e
          exact .inr ⟨hget.trans (if_pos e), hget₂.trans (if_pos e₂)⟩
        · exact .inl (hq.close hp e hm hm₂)
      · refine .inr ⟨hget.trans ?_, hget₂.trans ?_⟩
        · split
          · rfl
          · exact hq.stale
        · split
          · rfl
          · exact hq.stale'
    · have hl := hlow q hq
      exact ⟨by rw [hm.generation]; exact hl.lower, by rw [hm₂.generation]; exact hl.lower'⟩
  | once hnd hps hdist =>
    obtain ⟨hfresh, hnd⟩ := List.nodup_cons.mp hnd
    have hmem {m : Nat} (h : m ∈ Errand.closings ds) : m ∈ Errand.closings (.close n :: ds) :=
      List.mem_cons_of_mem _ h
    refine .once hnd (fun m hc q hq => ?_) fun m hc m' hc' => hdist m (hmem hc) m' (hmem hc')
    refine (hps m (hmem hc) q hq).close hp (fun e => hfresh ?_) hm hm₂
    rw [hdist n (List.mem_cons_self ..) m (hmem hc) p q hn hq e.symm]
    exact hc

end

/-- Errands are done for two hosts of which one is ahead, and it stays so. -/
theorem performAll_ahead {h h₂ : Host α ν} {ps : List (Key × Key)} {ds : List Errand}
    (ha : h.table.Ahead h₂.table) (hf : Fit h.table h₂.table ps ds) :
    ∃ (ps' : List (Key × Key)) (g g₂ : Host α ν),
      performAll (ps.map Prod.fst, h) ds = .ok (ps'.map Prod.fst, g) ∧
      performAll (ps.map Prod.snd, h₂) ds = .ok (ps'.map Prod.snd, g₂) ∧
      g.table.Ahead g₂.table := by
  induction ds generalizing h h₂ ps with
  | nil => exact ⟨ps, h, h₂, rfl, rfl, ha⟩
  | cons d ds ih =>
    unfold performAll at ih ⊢
    simp only [List.foldlM_cons]
    cases d with
    | create remoteAddr remotePort localPort =>
      obtain ⟨e, n, n₂, he, he₂⟩ | ⟨u, k, k₂, t', t₂', n, n₂, he, he₂, hb, hb₂, hi, ha'⟩ :=
        ha.create remoteAddr remotePort localPort
      · rw [perform_refused he, perform_refused he₂]
        have ha₁ : (h.note n).table.Ahead (h₂.note n₂).table := ha
        exact ih ha₁ hf.refused
      · rw [perform_created he, perform_created he₂]
        have ha₁ : ({ h with table := t' }.note n).table.Ahead
            ({ h₂ with table := t₂' }.note n₂).table := ha'
        have hrest := ih ha₁ (hf.created ha hb hb₂ hi)
        rw [List.map_append, List.map_append] at hrest
        exact hrest
    | close n =>
      cases hn : ps[n]? with
      | none =>
        have hnone {f : Key × Key → Key} {g : Host α ν} :
            perform (ps.map f, g) (.close n) = .ok (ps.map f, g) := by
          unfold perform
          simp [hn]
        rw [hnone, hnone]
        exact ih ha hf.idle
      | some p =>
        have hp {f : Key × Key → Key} : (ps.map f)[n]? = some (f p) := by
          rw [List.getElem?_map, hn]
          rfl
        rcases hf.use hn with hm | hs
        · obtain ⟨t', t₂', ns, ns₂, he, he₂, hr, hr₂, ha'⟩ := ha.close hm
          rw [perform_closed hp he, perform_closed hp he₂]
          refine ih ?_ ?_
          · rw [table_notes, table_notes]
            exact ha'
          · rw [table_notes, table_notes]
            exact hf.closed hn hm hr hr₂
        · rw [perform_closed hp (ConnectionTable.close_stale hs.stale),
            perform_closed hp (ConnectionTable.close_stale hs.stale')]
          exact ih ha hf.idle

/-! ## A record that is closed right after it was created -/

/-- What the creation of a record gives without and with an earlier record that was closed again:
the same error, or the same slot in the next generation, and the next initial sequence number. -/
inductive OneAhead : Except Error Key × Host α ν → Except Error Key × Host α ν → Prop
  | refused (e : Error) (h h₂ : Host α ν) : OneAhead (.error e, h) (.error e, h₂)
  | created {k k₂ : Key} {h h₂ : Host α ν} {u : FourTuple} {s : SeqNumber} : k₂.index = k.index →
    k₂.generation = SlotMap.nextGeneration k.generation → h.get? k = some (.new u s) →
    h₂.get? k₂ = some (.new u (s.add 64000)) → OneAhead (.ok k, h) (.ok k₂, h₂)

theorem create_ahead {h h₂ : Host α ν} (ha : h.table.Ahead h₂.table) (remoteAddr : Address)
    (remotePort localPort : UInt16) :
    ∃ r r₂, h.create remoteAddr remotePort localPort = .ok r ∧
      h₂.create remoteAddr remotePort localPort = .ok r₂ ∧ OneAhead r r₂ := by
  obtain ⟨e, n, n₂, he, he₂⟩ | ⟨u, k, k₂, t', t₂', n, n₂, he, he₂, hb, hb₂, hi, -⟩ :=
    ha.create remoteAddr remotePort localPort
  · exact ⟨_, _, create_eq he, create_eq he₂, .refused _ _ _⟩
  · refine ⟨_, _, create_eq he, create_eq he₂, .created (u := u) (s := h.table.nextSeq) hi ?_ ?_ ?_⟩
    · rw [hb₂.inserted.generation, ha.generation, hb.inserted.generation]
    · exact (hb.get? k).trans (if_pos rfl)
    · have hseq : h₂.table.nextSeq = h.table.nextSeq.add 64000 := ha.nextSeq
      rw [← hseq]
      exact (hb₂.get? k₂).trans (if_pos rfl)

/-- The keys of a history fit any errands before the generations are used up, and else those that
use each key of a live record once. -/
theorem fit_start {log : History α ν} {h h₂ : Host α ν} (hi : History.Issued log h.table)
    (ha : h.table.Ahead h₂.table) (hget : ∀ k, h₂.get? k = h.get? k) {ks : List Key}
    (hks : ∀ k ∈ ks, History.createdAs log k ≠ none) {ds : List Errand}
    (hds : History.creates log + 1 + Errand.creations ds < UInt64.size - 1 ∨
      ks.Nodup ∧ (∀ k ∈ ks, h.get? k ≠ none) ∧ (Errand.closings ds).Nodup) :
    Fit h.table h₂.table (ks.map fun k => (k, k)) ds := by
  have hmatched {k : Key} {c : Connection} (hk : h.get? k = some c) :
      h.table.Matched h₂.table k k := ⟨rfl, c, c, hk, (hget k).trans hk, rfl⟩
  rcases hds with hlast | ⟨hnd, hlive, hcl⟩
  · have hgen := hi.generation (by omega)
    have hgen₂ : h₂.table.records.generation.toNat = h.table.records.generation.toNat + 1 := by
      rw [ha.generation, SlotMap.toNat_nextGeneration (by omega)]
    refine .lasting (by omega) (fun p hp => ?_) fun p hp => ?_
    · obtain ⟨k, -, rfl⟩ := List.mem_map.mp hp
      cases hk : h.get? k with
      | none => exact .inr ⟨hk, (hget k).trans hk⟩
      | some c => exact .inl (hmatched hk)
    · obtain ⟨k, hk, rfl⟩ := List.mem_map.mp hp
      have hlow := hi.lower (by omega) k (hks k hk)
      exact ⟨Nat.lt_of_le_of_lt hlow (by omega), Nat.lt_of_le_of_lt hlow (by omega)⟩
  · have hpair {n : Nat} {p : Key × Key} (hn : (ks.map fun k => (k, k))[n]? = some p) :
        ks[n]? = some p.1 ∧ p.2 = p.1 := by
      rw [List.getElem?_map] at hn
      obtain ⟨k, hk, rfl⟩ := Option.map_eq_some_iff.mp hn
      exact ⟨hk, rfl⟩
    refine .once hcl (fun n _ p hn => ?_) fun n _ m _ p q hn hm e => ?_
    · obtain ⟨hk, e⟩ := hpair hn
      obtain ⟨c, hc⟩ := Option.ne_none_iff_exists'.mp (hlive p.1 (List.mem_of_getElem? hk))
      rw [e]
      exact hmatched hc
    · obtain ⟨hk, -⟩ := hpair hn
      obtain ⟨hk', -⟩ := hpair hm
      rw [← e] at hk'
      exact (List.getElem?_inj (List.getElem?_eq_some_iff.mp hk).1 hnd).mp (hk.trans hk'.symm)

variable [Arena α] [Network ν]

/-- After any run, a record that is created and then closed leaves the registrations, the records,
their order and their number as they were. Errands are done with and without it in the same way:
they use keys that the run gave or that they gave themselves, and either they do not exhaust the
generations, or they use only keys of live records, and each key once. Every creation behind them
gets the same error, or the same slot, in the next generation, for a record whose initial sequence
number is 64000 further. -/
theorem create_close_invisible (cfg : Config) (arena : α) (network : ν) (cs : List (Call α ν)) :
    ∃ log h, (start cfg arena network).run cs = .ok (log, h) ∧
      ∀ remoteAddr remotePort localPort k h₁,
        h.create remoteAddr remotePort localPort = .ok (.ok k, h₁) →
        ∃ h₂, h₁.close k = .ok h₂ ∧
          (∀ src dst srcPort dstPort,
            h₂.table.find? src dst srcPort dstPort = h.table.find? src dst srcPort dstPort) ∧
          (∀ k', h₂.get? k' = h.get? k') ∧ h₂.table.entries = h.table.entries ∧
          h₂.table.len = h.table.len ∧ h₂.get? k = none ∧
          ∀ ks ds, (∀ k' ∈ ks, History.createdAs log k' ≠ none) →
            (History.creates log + 1 + Errand.creations ds < UInt64.size - 1 ∨
              ks.Nodup ∧ (∀ k' ∈ ks, h.get? k' ≠ none) ∧ (Errand.closings ds).Nodup) →
            ∃ ks' ks₂' g g₂, performAll (ks, h) ds = .ok (ks', g) ∧
              performAll (ks, h₂) ds = .ok (ks₂', g₂) ∧ ks₂'.length = ks'.length ∧
              ∀ remoteAddr remotePort localPort, ∃ r r₂,
                g.create remoteAddr remotePort localPort = .ok r ∧
                g₂.create remoteAddr remotePort localPort = .ok r₂ ∧ OneAhead r r₂ := by
  obtain ⟨log, h, hr, hs, hi⟩ := run_issued cfg arena network cs
  refine ⟨log, h, hr, fun remoteAddr remotePort localPort k h₁ hc => ?_⟩
  obtain ⟨⟨a, t₁, n⟩, hcr, hc⟩ := Except.bind_eq_ok.mp hc
  cases hc
  obtain ⟨t₂, ns, hcl, ha, hfresh, hget, hfind⟩ := ConnectionTable.close_create hs.wellFormed hcr
  have hclose : ({ h with table := t₁ }.note n).close k = _ := close_eq hcl
  refine ⟨_, hclose, ?_⟩
  generalize hg₂ : Host.notes (α := α) (ν := ν) _ ns = h₂
  have ht : h₂.table = t₂ := by
    rw [← hg₂, table_notes]
  rw [← ht] at ha hget hfind
  refine ⟨fun src dst srcPort dstPort => hfind _, hget, SlotMap.entries_eq hget, ha.len,
    (hget k).trans hfresh, fun ks ds hks hds => ?_⟩
  obtain ⟨ps, g, g₂, he, he₂, hag⟩ := performAll_ahead ha (fit_start hi ha hget hks hds)
  have hfst : (ks.map fun k => (k, k)).map Prod.fst = ks := by
    rw [List.map_map]
    exact List.map_id ks
  have hsnd : (ks.map fun k => (k, k)).map Prod.snd = ks := by
    rw [List.map_map]
    exact List.map_id ks
  rw [hfst] at he
  rw [hsnd] at he₂
  exact ⟨_, _, g, g₂, he, he₂, by simp, create_ahead hag⟩

/-- A record is created and closed. Then the one before it is closed, and closed once more in vain,
and two are created, of which the second finds no room. -/
theorem create_close_invisible_full : ∃ log h h₁ h₂ ks₂ g g₂,
    (start { address := ⟨10, 0, 0, 1⟩, capacity := 2 } ({ limit := 0 } : Budget)
      ({ address := ⟨10, 0, 0, 1⟩ } : Outbox)).run
      [.create ⟨10, 0, 0, 2⟩ 80 5000, .create ⟨10, 0, 0, 2⟩ 80 5001, .close ⟨0, 1⟩] =
        .ok (log, h) ∧
    h.create ⟨10, 0, 0, 3⟩ 80 5000 = .ok (.ok ⟨0, 3⟩, h₁) ∧ h₁.close ⟨0, 3⟩ = .ok h₂ ∧
    (∀ k, h₂.get? k = h.get? k) ∧
    performAll ([⟨0, 1⟩, ⟨1, 2⟩], h) [.close 1, .close 1, .create ⟨10, 0, 0, 2⟩ 80 5000,
      .create ⟨10, 0, 0, 2⟩ 80 5002] = .ok ([⟨0, 1⟩, ⟨1, 2⟩, ⟨1, 3⟩, ⟨0, 4⟩], g) ∧
    performAll ([⟨0, 1⟩, ⟨1, 2⟩], h₂) [.close 1, .close 1, .create ⟨10, 0, 0, 2⟩ 80 5000,
      .create ⟨10, 0, 0, 2⟩ 80 5002] = .ok (ks₂, g₂) ∧
    ∃ r r₂, g.create ⟨10, 0, 0, 2⟩ 80 5003 = .ok r ∧ g₂.create ⟨10, 0, 0, 2⟩ 80 5003 = .ok r₂ ∧
      OneAhead r r₂ ∧ r.1 = .error .noMemory := by
  obtain ⟨log, h, hr, hall⟩ := create_close_invisible
    { address := ⟨10, 0, 0, 1⟩, capacity := 2 } ({ limit := 0 } : Budget)
    ({ address := ⟨10, 0, 0, 1⟩ } : Outbox)
    [.create ⟨10, 0, 0, 2⟩ 80 5000, .create ⟨10, 0, 0, 2⟩ 80 5001, .close ⟨0, 1⟩]
  have hrun := hr
  cases hrun
  obtain ⟨h₂, hc, -, hget, -, -, -, hlater⟩ := hall ⟨10, 0, 0, 3⟩ 80 5000 ⟨0, 3⟩ _ rfl
  obtain ⟨ks, ks₂, g, g₂, he, he₂, -, hnext⟩ := hlater [⟨0, 1⟩, ⟨1, 2⟩]
    [.close 1, .close 1, .create ⟨10, 0, 0, 2⟩ 80 5000, .create ⟨10, 0, 0, 2⟩ 80 5002]
    (by decide) (.inl (by decide))
  have hdone := he
  cases hdone
  obtain ⟨r, r₂, hcr, hcr₂, ho⟩ := hnext ⟨10, 0, 0, 2⟩ 80 5003
  have ha := hcr
  cases ha
  exact ⟨_, _, _, h₂, ks₂, _, g₂, hr, rfl, hc, hget, he, he₂, _, r₂, hcr, hcr₂, ho, rfl⟩

end Host

end TcpEngine
