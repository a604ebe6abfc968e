import Mathlib.Data.List.Nodup
import TcpEngine.Proofs.KeySafety
import TcpEngine.Proofs.Vacancies

/-!
# How slot maps lie in memory

The slots of a slot map after any run, by the calls that it has answered. The free list is a stack of
the slots that were vacated and not used since, there are as many slots as there were ever values at a
time, and no generation is found in two slots.

* `Past.stored`, `Past.vacated`: how many values a map with a given past has, and which of its slots
  are vacant, the one vacated last first.
* `Tracked.Laid`: free list, count and slots are what the past says. Every call keeps this
  (`Tracked.Laid.answered`).
* `run_arranged`: the arrangement of all maps of a run, and where the next insertion goes.
-/

namespace TcpEngine

namespace SlotMap

variable {α : Type}

/-! ## Free lists and counts -/

/-- The links from one head lead one way only. -/
theorem FreeList.unique {slots : Array (Slot α)} {head : Option Nat} {is js : List Nat}
    (h : FreeList slots head is) (h' : FreeList slots head js) : js = is := by
  induction h generalizing js with
  | nil =>
    cases h'
    rfl
  | cons hs _ ih =>
    cases h' with
    | cons hs' h' =>
      cases hs.symm.trans hs'
      rw [ih h']

/-- A list of slots that the links lead through is the whole free list. -/
theorem WellFormed.freeList {m : SlotMap α} (hm : m.WellFormed) {is : List Nat}
    (h : FreeList m.slots m.freeHead is) :
    is.Nodup ∧ ∀ i, i ∈ is ↔ ∃ next, m.slots[i]? = some (.vacant next) := by
  obtain ⟨js, hf, hnd, hall⟩ := hm.free
  rw [hf.unique h]
  exact ⟨hnd, fun i => ⟨hf.vacant, fun ⟨next, hv⟩ => hall i next hv⟩⟩

theorem WellFormed.len_le_size {m : SlotMap α} (hm : m.WellFormed) : m.len ≤ m.slots.size := by
  rw [hm.len]
  exact Array.countP_le_size

/-- With an empty free list every slot is occupied. -/
theorem WellFormed.occupied {m : SlotMap α} (hm : m.WellFormed)
    (h : FreeList m.slots m.freeHead []) {i : Nat} {s : Slot α} (hs : m.slots[i]? = some s) :
    s.isOccupied = true := by
  cases s with
  | occupied g v => rfl
  | vacant next => cases ((hm.freeList h).2 i).mpr ⟨next, hs⟩

theorem WellFormed.len_eq_size {m : SlotMap α} (hm : m.WellFormed)
    (h : FreeList m.slots m.freeHead []) : m.len = m.slots.size := by
  rw [hm.len, Array.countP_eq_size]
  intro s hs
  obtain ⟨i, hi⟩ := Array.mem_iff_getElem?.mp hs
  exact hm.occupied h hi

/-! ## What the past says -/

namespace Past

/-- The number of values that were inserted and not removed. -/
def stored : Past α → Nat
  | [] => 0
  | (.insert .., .key (some _)) :: past => stored past + 1
  | (.remove _, .value (some _)) :: past => stored past - 1
  | _ :: past => stored past

/-- The slots that were vacated and not used since, the one vacated last first. -/
def vacated : Past α → List Nat
  | [] => []
  | (.insert .., .key (some k)) :: past => (vacated past).erase k.index
  | (.remove k, .value (some _)) :: past => k.index :: vacated past
  | _ :: past => vacated past

end Past

namespace Tracked

/-- The map is arranged as its past says. -/
structure Laid (t : Tracked α) : Prop where
  sound : t.Sound
  free : FreeList t.map.slots t.map.freeHead t.past.vacated
  len : t.map.len = t.past.stored
  /-- The number of slots is the highest number of values so far. -/
  bound : ∀ old, old <:+ t.past → Past.stored old ≤ t.map.slots.size
  reached : ∃ old, old <:+ t.past ∧ Past.stored old = t.map.slots.size
  /-- Keys are issued in the order of their generations, as long as there are any. -/
  ordered : t.past.ideal.issued.length < UInt64.size →
    t.past.ideal.issued.Pairwise fun k k' => k'.generation < k.generation

variable {t : Tracked α}

theorem laid_start (capacity : UInt64) : ({ capacity } : Tracked α).Laid where
  sound := sound_start capacity
  free := .nil
  len := rfl
  bound old h := by
    rw [List.suffix_nil.mp h]
    exact Nat.le_refl _
  reached := ⟨[], List.suffix_rfl, rfl⟩
  ordered _ := List.Pairwise.nil

/-- A call after which there are as many slots as before, or more and all of them occupied. -/
theorem Laid.step (h : t.Laid) {c : Call α} {a : Answer α} {m : SlotMap α}
    (hm : t.map.Answered c a m)
    (hfree : FreeList m.slots m.freeHead (Past.vacated ((c, a) :: t.past)))
    (hlen : m.len = Past.stored ((c, a) :: t.past))
    (hgrow : t.map.slots.size ≤ m.slots.size)
    (hsize : m.slots.size = t.map.slots.size ∨ m.slots.size = m.len)
    (hordered : (t.past.ideal.next c a).issued.length < UInt64.size →
      (t.past.ideal.next c a).issued.Pairwise fun k k' => k'.generation < k.generation) :
    ({ t with past := (c, a) :: t.past, map := m } : Tracked α).Laid where
  sound := h.sound.answered hm
  free := hfree
  len := hlen
  bound old hold := by
    rcases List.suffix_cons_iff.mp hold with rfl | hold
    · rw [← hlen]
      exact (h.sound.answered hm).wellFormed.len_le_size
    · exact Nat.le_trans (h.bound old hold) hgrow
  reached := by
    obtain ⟨old, hold, he⟩ := h.reached
    rcases hsize with hsize | hsize
    · exact ⟨old, hold.trans (List.suffix_cons ..), he.trans hsize.symm⟩
    · exact ⟨_, List.suffix_rfl, (hsize.trans hlen).symm⟩
  ordered := hordered

theorem Laid.ordered_issue (h : t.Laid) {v : α} {k : Key} {m : SlotMap α}
    (hm : t.map.Inserted v k m) (hlt : (k :: t.past.ideal.issued).length < UInt64.size) :
    (k :: t.past.ideal.issued).Pairwise fun k k' => k'.generation < k.generation := by
  rw [List.length_cons] at hlt
  refine List.pairwise_cons.mpr ⟨fun k' hk' => ?_, h.ordered (by omega)⟩
  have hold := h.sound.issued (by omega) k' hk'
  have hgen := h.sound.generation (by omega)
  rw [hm.generation, UInt64.lt_iff_toNat_lt, hgen]
  omega

theorem Laid.answered (h : t.Laid) {c : Call α} {a : Answer α} {m : SlotMap α}
    (hm : t.map.Answered c a m) :
    ({ t with past := (c, a) :: t.past, map := m } : Tracked α).Laid := by
  have hsize : ∀ {m : SlotMap α}, m.slots.size = t.map.slots.size →
      t.map.slots.size ≤ m.slots.size := fun he => Nat.le_of_eq he.symm
  have hw := h.sound.wellFormed
  have hcases := hm
  cases hcases with
  | @inserted v memory k _ hroom he hi =>
    have hlen : m.len = t.past.stored + 1 := by rw [hi.len, h.len]
    obtain ⟨hnil, hk, hs, hf⟩ | ⟨js, hcons, hs, hf⟩ := h.free.insert (hw.freeList h.free).1 he
    · have hfull := hw.len_eq_size (hnil ▸ h.free)
      refine h.step hm ?_ hlen (by omega) (.inr (by rw [hs, hi.len, hfull]))
        (h.ordered_issue hi)
      rw [Past.vacated, hnil]
      exact hf
    · refine h.step hm ?_ hlen (hsize hs) (.inl hs) (h.ordered_issue hi)
      rw [Past.vacated, hcons, List.erase_cons_head]
      exact hf
  | refused _ => exact h.step hm h.free h.len (hsize rfl) (.inl rfl) h.ordered
  | found k => exact h.step hm h.free h.len (hsize rfl) (.inl rfl) h.ordered
  | @modified k v f hk =>
    have hs : (t.map.store k (f v)).slots.size = t.map.slots.size := Array.size_setIfInBounds ..
    exact h.step hm (h.free.store hk _) h.len (hsize hs) (.inl hs) h.ordered
  | unmodified _ => exact h.step hm h.free h.len (hsize rfl) (.inl rfl) h.ordered
  | removed hk he hr =>
    obtain ⟨-, hs, hf⟩ := h.free.remove he
    refine h.step hm hf ?_ (hsize hs) (.inl hs) h.ordered
    have hlen := hr.len
    rw [Past.stored, ← h.len]
    omega
  | unremoved _ => exact h.step hm h.free h.len (hsize rfl) (.inl rfl) h.ordered
  | listed => exact h.step hm h.free h.len (hsize rfl) (.inl rfl) h.ordered

/-- A call does not fault, and keeps the map laid. -/
theorem Laid.next (h : t.Laid) (c : Call α) : ∃ t', t.next c = .ok t' ∧ t'.Laid := by
  obtain ⟨a, m, ha, he⟩ := next_answered h.sound.wellFormed c
  exact ⟨_, he, h.answered ha⟩

/-- A value in a slot is one of a key that was issued. -/
theorem Sound.issued_slot (h : t.Sound) {i : Nat} {g : UInt64} {v : α}
    (hs : t.map.slots[i]? = some (.occupied g v)) : ⟨i, g⟩ ∈ t.past.ideal.issued := by
  have hk : t.map.get? ⟨i, g⟩ = some v := get?_eq_some.mpr hs
  exact t.past.issued_of_value ((h.value ⟨i, g⟩).symm.trans hk)

/-- The slots of a map with its past. -/
structure Arranged (t : Tracked α) : Prop where
  /-- The links lead through the slots that were vacated and not used since, the one vacated last
  first, and end there. -/
  free : FreeList t.map.slots t.map.freeHead t.past.vacated
  /-- They lead through every vacant slot once and through no occupied one. -/
  nodup : t.past.vacated.Nodup
  vacant : ∀ i, i ∈ t.past.vacated ↔ ∃ next, t.map.slots[i]? = some (.vacant next)
  count : t.map.len = t.map.slots.countP Slot.isOccupied
  room : t.map.len ≤ t.capacity.toNat
  /-- There are as many slots as there were values at most. -/
  len : t.map.len = t.past.stored
  bound : ∀ old, old <:+ t.past → Past.stored old ≤ t.map.slots.size
  reached : ∃ old, old <:+ t.past ∧ Past.stored old = t.map.slots.size
  /-- No two occupied slots have the same generation, and the next one is above all of them. -/
  distinct : t.past.ideal.issued.length < UInt64.size - 1 → ∀ (i j : Nat) g v w,
    t.map.slots[i]? = some (.occupied g v) → t.map.slots[j]? = some (.occupied g w) → i = j
  below : t.past.ideal.issued.length < UInt64.size - 1 → ∀ (i : Nat) g v,
    t.map.slots[i]? = some (.occupied g v) → g < t.map.generation
  /-- An insertion never meets an occupied slot on the free list. -/
  head : ∀ i, t.map.freeHead = some i → ∃ next, t.map.slots[i]? = some (.vacant next)
  /-- A full map answers an insertion with nothing, and stays as it is. -/
  insert_full : t.capacity.toNat ≤ t.map.len → ∀ v,
    t.map.call (.insert v true) = .ok (.key none, t.map)
  /-- Otherwise the slot vacated last is used, or a new one if every slot is occupied. -/
  insert_room : t.map.len < t.capacity.toNat → ∀ v, ∃ k m,
    t.map.call (.insert v true) = .ok (.key (some k), m) ∧ m.get? k = some v ∧
    ((∃ js, t.past.vacated = k.index :: js ∧ m.slots.size = t.map.slots.size) ∨
      t.past.vacated = [] ∧ (∀ s ∈ t.map.slots, s.isOccupied = true) ∧
        k.index = t.map.slots.size ∧ m.slots.size = t.map.slots.size + 1)

end Tracked

/-- With memory for a slot, a call for an insertion is an insertion. -/
theorem call_insert (m : SlotMap α) (v : α) : m.call (.insert v true) = do
    match ← m.insert v with
    | none => return (.key none, m)
    | some (k, m') => return (.key (some k), m') := by
  unfold call
  exact if_neg fun h => Bool.noConfusion h.2

theorem Tracked.Laid.arranged {t : Tracked α} (h : t.Laid) : t.Arranged where
  free := h.free
  nodup := (h.sound.wellFormed.freeList h.free).1
  vacant := (h.sound.wellFormed.freeList h.free).2
  count := h.sound.wellFormed.len
  room := by
    rw [← h.sound.capacity]
    exact h.sound.wellFormed.room
  len := h.len
  bound := h.bound
  reached := h.reached
  distinct hlt i j g v w hi hj := by
    have hnd : (t.past.ideal.issued.map Key.generation).Nodup :=
      List.pairwise_map.mpr ((h.ordered (by omega)).imp fun hlt => (UInt64.ne_of_lt hlt).symm)
    exact congrArg Key.index (List.inj_on_of_nodup_map hnd (h.sound.issued_slot hi)
      (h.sound.issued_slot hj) rfl)
  below hlt i g v hi := by
    have hle := h.sound.issued (by omega) _ (h.sound.issued_slot hi)
    have hgen := h.sound.generation hlt
    rw [UInt64.lt_iff_toNat_lt, hgen]
    exact Nat.lt_succ_of_le hle
  head i hi := by
    have hf := h.free
    rw [hi] at hf
    generalize t.past.vacated = is at hf
    cases hf with
    | cons hs _ => exact ⟨_, hs⟩
  insert_full hfull v := by
    rw [← h.sound.capacity] at hfull
    rw [call_insert]
    obtain ⟨-, he⟩ | ⟨hroom, -⟩ := insert_cases h.sound.wellFormed v
    · rw [he]
      rfl
    · exact absurd hroom (Nat.not_lt.mpr hfull)
  insert_room hroom v := by
    rw [← h.sound.capacity] at hroom
    rw [call_insert]
    obtain ⟨hfull, -⟩ | ⟨-, k, m, he, hi⟩ := insert_cases h.sound.wellFormed v
    · exact absurd hroom (Nat.not_lt.mpr hfull)
    · rw [he]
      refine ⟨k, m, rfl, by rw [hi.get?, if_pos rfl], ?_⟩
      obtain ⟨hnil, hk, hs, -⟩ | ⟨js, hcons, hs, -⟩ :=
        h.free.insert (h.sound.wellFormed.freeList h.free).1 he
      · refine .inr ⟨hnil, fun s hs => ?_, hk, hs⟩
        obtain ⟨i, hi⟩ := Array.mem_iff_getElem?.mp hs
        exact h.sound.wellFormed.occupied (hnil ▸ h.free) hi
      · exact .inl ⟨js, hcons, hs⟩

/-- After every run, the vacant slots of each map are linked into a free list, once each and in the
reverse order of being vacated. The count is that of the occupied slots and within the capacity, and
there are as many slots as there were values at most. With fewer insertions than generations, those
of the occupied slots are different and below the next one. An insertion answers with nothing if and
only if the map is full, and otherwise uses the slot vacated last, or a new one if all are
occupied. -/
theorem run_arranged (capacities : List UInt64) (actions : List (Action α)) :
    ∃ ts, run capacities actions = .ok ts ∧ ∀ t ∈ ts, t.Arranged := by
  obtain ⟨ts, he, h⟩ :=
    run_keeps (fun _ c h => h.next c) Tracked.laid_start capacities actions
  exact ⟨ts, he, fun t ht => (h t ht).arranged⟩

/-- Two slots of three are filled and vacated again, so the second is used next. -/
theorem run_arranged_reuse : ∃ t : Tracked Nat,
    run [3] [.call 0 (.insert 5 true), .call 0 (.insert 6 true), .call 0 (.remove ⟨0, 1⟩),
      .call 0 (.remove ⟨1, 2⟩)] = .ok [t] ∧ t.Arranged ∧ t.past.vacated = [1, 0] ∧
    t.past.ideal.issued.length < UInt64.size - 1 ∧ t.map.len < t.capacity.toNat ∧
    ∃ k m, t.map.call (.insert 7 true) = .ok (.key (some k), m) ∧ k.index = 1 ∧
      m.slots.size = t.map.slots.size := by
  obtain ⟨ts, he, h⟩ := run_arranged [3] [.call 0 (.insert 5 true), .call 0 (.insert 6 true),
    .call 0 (.remove ⟨0, 1⟩), .call 0 (.remove ⟨1, 2⟩)]
  cases he
  exact ⟨_, rfl, h _ (List.mem_cons_self ..), rfl, by decide, by decide, _, _, rfl, rfl, rfl⟩

end SlotMap

end TcpEngine
