import TcpEngine.SlotMap

/-!
# Slot maps: representation and laws

The representation of a slot map is right (`WellFormed`) if its free list links every vacant slot
exactly once and its count is that of the occupied slots. An empty map is well formed, and every
operation keeps that.

* `get?_store`, `store_store`, `store_self`: replacing the value of a live key (`modify_eq`).
* `insert_cases`: an insertion into a well-formed map never faults. It answers with nothing exactly
  if the map is full; otherwise its key was not live, and it is the only one that changes
  (`Inserted`).
* `remove_live`, `remove_stale`: a removal takes the value of a live key out (`Removed`), and does
  nothing for a stale one.
* `mem_entries`, `entries_pairwise`, `WellFormed.length_entries`: the entries are the live keys with
  their values, each key once and in the order of the slots, and the count says how many they are.
-/

namespace TcpEngine

/-- Whether a slot holds a value. -/
def Slot.isOccupied {α : Type} : Slot α → Bool
  | .occupied .. => true
  | .vacant _ => false

namespace SlotMap

variable {α : Type}

/-! ## Values under a key -/

theorem get?_eq_some {m : SlotMap α} {k : Key} {v : α} :
    m.get? k = some v ↔ m.slots[k.index]? = some (.occupied k.generation v) := by
  unfold get?
  split
  · rename_i g w hs
    rw [hs]
    by_cases hg : g = k.generation
    · simp [hg]
    · simp [hg]
  · rename_i hs
    constructor
    · intro h; cases h
    · intro h; exact absurd h (hs _ _)

theorem index_lt {m : SlotMap α} {k : Key} {v : α} (h : m.get? k = some v) :
    k.index < m.slots.size :=
  (Array.getElem?_eq_some_iff.mp (get?_eq_some.mp h)).1

/-- Two live keys of one slot are the same key. -/
theorem key_eq_of_index {m : SlotMap α} {k k' : Key} {v v' : α} (h : m.get? k = some v)
    (h' : m.get? k' = some v') (hi : k.index = k'.index) : k = k' := by
  have e := get?_eq_some.mp h
  rw [hi, get?_eq_some.mp h'] at e
  cases k; cases k'
  cases e; cases hi; rfl

/-- The map with `v` stored under the key `k`, in the slot and the generation of the key. -/
def store (m : SlotMap α) (k : Key) (v : α) : SlotMap α :=
  { m with slots := m.slots.setIfInBounds k.index (.occupied k.generation v) }

theorem modify_eq (m : SlotMap α) (k : Key) (f : α → α) :
    m.modify k f = (m.get? k).map fun v => m.store k (f v) := by
  unfold modify store
  cases m.get? k <;> rfl

@[simp] theorem store_store (m : SlotMap α) (k : Key) (v w : α) :
    (m.store k v).store k w = m.store k w := by
  simp [store]

theorem store_comm {m : SlotMap α} {k k' : Key} {v v' : α} (h : m.get? k = some v)
    (h' : m.get? k' = some v') (hne : k ≠ k') (w w' : α) :
    (m.store k w).store k' w' = (m.store k' w').store k w := by
  have hi : k.index ≠ k'.index := fun hi => hne (key_eq_of_index h h' hi)
  unfold store
  dsimp only
  rw [Array.setIfInBounds_comm _ _ hi]

theorem store_self {m : SlotMap α} {k : Key} {v : α} (h : m.get? k = some v) :
    m.store k v = m := by
  have hs := get?_eq_some.mp h
  have e : m.slots.setIfInBounds k.index (.occupied k.generation v) = m.slots := by
    apply Array.ext_getElem?
    intro i
    rw [Array.getElem?_setIfInBounds]
    split
    · rename_i hi; subst hi; rw [if_pos (index_lt h), hs]
    · rfl
  simp [store, e]

theorem get?_store {m : SlotMap α} {k : Key} {v : α} (h : m.get? k = some v) (w : α) (k' : Key) :
    (m.store k w).get? k' = if k' = k then some w else m.get? k' := by
  have hlt := index_lt h
  split
  · rename_i e; subst e
    exact get?_eq_some.mpr (by simp [store, hlt])
  · rename_i hne
    by_cases hi : k'.index = k.index
    · -- Another generation of the same slot is live neither before nor after.
      have hg : k.generation ≠ k'.generation := fun hg => hne (by cases k; cases k'; simp_all)
      have hk : m.get? k' = none := by
        cases hk : m.get? k' with
        | none => rfl
        | some u => exact absurd (key_eq_of_index hk h hi) hne
      rw [hk]
      simp [get?, store, hi, hlt, hg]
    · simp [get?, store, Ne.symm hi]

/-! ## The free list -/

/-- The links from `head` on lead through the vacant slots `is` in this order, and end. -/
inductive FreeList (slots : Array (Slot α)) : Option Nat → List Nat → Prop
  | nil : FreeList slots none []
  | cons {i : Nat} {next : Option Nat} {is : List Nat} : slots[i]? = some (.vacant next) →
      FreeList slots next is → FreeList slots (some i) (i :: is)

/-- A slot on the free list is vacant. -/
theorem FreeList.vacant {slots : Array (Slot α)} {head : Option Nat} {is : List Nat}
    (h : FreeList slots head is) {i : Nat} (hi : i ∈ is) :
    ∃ next, slots[i]? = some (.vacant next) := by
  induction h with
  | nil => cases hi
  | cons hs _ ih =>
    rcases List.mem_cons.mp hi with rfl | hi
    · exact ⟨_, hs⟩
    · exact ih hi

/-- A free list reads its own slots only. -/
theorem FreeList.congr {slots slots' : Array (Slot α)} {head : Option Nat} {is : List Nat}
    (h : FreeList slots head is) (hs : ∀ i ∈ is, slots'[i]? = slots[i]?) :
    FreeList slots' head is := by
  induction h with
  | nil => exact .nil
  | cons hi _ ih =>
    refine .cons ?_ (ih fun j hj => hs j (List.mem_cons_of_mem _ hj))
    rw [hs _ (List.mem_cons_self ..), hi]

/-- The slot of a live key is not on the free list. -/
theorem FreeList.not_mem {m : SlotMap α} {head : Option Nat} {is : List Nat}
    (h : FreeList m.slots head is) {k : Key} {v : α} (hk : m.get? k = some v) : k.index ∉ is := by
  intro hi
  obtain ⟨next, hv⟩ := h.vacant hi
  rw [get?_eq_some.mp hk] at hv
  cases hv

theorem FreeList.store {m : SlotMap α} {head : Option Nat} {is : List Nat}
    (h : FreeList m.slots head is) {k : Key} {v : α} (hk : m.get? k = some v) (w : α) :
    FreeList (m.store k w).slots head is := by
  refine h.congr fun i hi => ?_
  have hne : k.index ≠ i := by
    rintro rfl
    exact h.not_mem hk hi
  simp [SlotMap.store, hne]

/-- The representation of a map is right. -/
structure WellFormed (m : SlotMap α) : Prop where
  /-- The free list links every vacant slot once. -/
  free : ∃ is, FreeList m.slots m.freeHead is ∧ is.Nodup ∧
    ∀ i next, m.slots[i]? = some (.vacant next) → i ∈ is
  len : m.len = m.slots.countP Slot.isOccupied
  room : m.len ≤ m.capacity.toNat

theorem empty_wellFormed (capacity : UInt64) : (empty capacity : SlotMap α).WellFormed where
  free := ⟨[], .nil, List.nodup_nil, by simp [empty]⟩
  len := by simp [empty]
  room := Nat.zero_le _

/-- How the number of occupied slots changes with one slot. -/
theorem countP_set {slots : Array (Slot α)} {i : Nat} {s : Slot α} (hs : slots[i]? = some s)
    (s' : Slot α) : (slots.setIfInBounds i s').countP Slot.isOccupied + s.isOccupied.toNat =
      slots.countP Slot.isOccupied + s'.isOccupied.toNat := by
  obtain ⟨hi, rfl⟩ := Array.getElem?_eq_some_iff.mp hs
  have hpos : slots[i].isOccupied = true → 0 < slots.countP Slot.isOccupied := fun h =>
    Array.countP_pos_iff.mpr ⟨_, Array.getElem_mem hi, h⟩
  rw [Array.setIfInBounds_def, dif_pos hi, Array.countP_set hi]
  cases h : slots[i].isOccupied <;> cases s'.isOccupied <;> simp
  all_goals have := hpos h; omega

theorem WellFormed.store {m : SlotMap α} (hm : m.WellFormed) {k : Key} {v : α}
    (h : m.get? k = some v) (w : α) : (m.store k w).WellFormed := by
  obtain ⟨is, hf, hnd, hall⟩ := hm.free
  have hs := get?_eq_some.mp h
  refine ⟨⟨is, hf.store h w, hnd, fun i next hv => ?_⟩, ?_, hm.room⟩
  · by_cases hi : k.index = i
    · subst hi; simp [SlotMap.store, index_lt h] at hv
    · exact hall i next (by simpa [SlotMap.store, hi] using hv)
  · have := countP_set hs (.occupied k.generation w)
    simp only [SlotMap.store, Slot.isOccupied] at this ⊢
    have := hm.len; omega

/-! ## Insertion -/

/-- What an insertion of `v` does that gives the key `k`. -/
structure Inserted (m : SlotMap α) (v : α) (k : Key) (m' : SlotMap α) : Prop where
  wellFormed : m'.WellFormed
  /-- Nothing was stored in the slot of the key. -/
  vacant : ∀ g, m.get? ⟨k.index, g⟩ = none
  generation : k.generation = m.generation
  get? : ∀ k', m'.get? k' = if k' = k then some v else m.get? k'
  len : m'.len = m.len + 1
  capacity : m'.capacity = m.capacity

/-- The count of a map that is not full fits its word. -/
theorem succ_len {m : SlotMap α} (h : m.len < m.capacity.toNat) :
    Count.succ m.len = .ok (m.len + 1) := by
  have hc := m.capacity.toNat_lt_size
  have hlt : m.len + 1 < UInt64.size := by omega
  unfold Count.succ Count.add?
  rw [if_pos hlt]

/-- An insertion into the vacant slot `i`, which is the head of a free list. -/
theorem occupy_inserted {m : SlotMap α} {i : Nat} {next : Option Nat} {is : List Nat}
    (hs : m.slots[i]? = some (.vacant next)) (hf : FreeList m.slots next is) (hnd : (i :: is).Nodup)
    (hall : ∀ j next, m.slots[j]? = some (.vacant next) → j ∈ i :: is)
    (hlen : m.len = m.slots.countP Slot.isOccupied) (hroom : m.len < m.capacity.toNat) (v : α) :
    ∃ k m', m.occupy i next v = .ok (some (k, m')) ∧ m.Inserted v k m' := by
  obtain ⟨hi, hsi⟩ := Array.getElem?_eq_some_iff.mp hs
  have hni := (List.nodup_cons.mp hnd).1
  refine ⟨⟨i, m.generation⟩, { m with
    slots := m.slots.setIfInBounds i (.occupied m.generation v), freeHead := next
    generation := nextGeneration m.generation, len := m.len + 1 }, ?_, ?_⟩
  · unfold occupy
    rw [succ_len hroom]
    rfl
  · refine ⟨⟨⟨is, hf.congr fun j hj => ?_, (List.nodup_cons.mp hnd).2, fun j next' hv => ?_⟩, ?_,
      hroom⟩, fun g => ?_, rfl, fun k' => ?_, rfl, rfl⟩
    · have hij : i ≠ j := by rintro rfl; exact hni hj
      simp [hij]
    · by_cases hij : i = j
      · subst hij; simp [hi] at hv
      · rcases List.mem_cons.mp (hall j next' (by simpa [hij] using hv)) with rfl | hj
        · exact absurd rfl hij
        · exact hj
    · have := countP_set hs (.occupied m.generation v)
      simp only [Slot.isOccupied, Bool.toNat_true, Bool.toNat_false] at this ⊢
      omega
    · simp [SlotMap.get?, hs]
    · by_cases hk : k'.index = i
      · by_cases hg : m.generation = k'.generation
        · have e : k' = ⟨i, m.generation⟩ := by cases k'; simp_all
          rw [if_pos e]
          simp [SlotMap.get?, hk, hi, hg]
        · have e : k' ≠ ⟨i, m.generation⟩ := by rintro rfl; exact hg rfl
          rw [if_neg e]
          simp [SlotMap.get?, hk, hi, hg, hsi]
      · have e : k' ≠ ⟨i, m.generation⟩ := by rintro rfl; exact hk rfl
        rw [if_neg e]
        simp [SlotMap.get?, Ne.symm hk]

/-- An insertion answers with nothing exactly if the map is full. -/
theorem insert_cases {m : SlotMap α} (hm : m.WellFormed) (v : α) :
    (m.capacity.toNat ≤ m.len ∧ m.insert v = .ok none) ∨
    (m.len < m.capacity.toNat ∧ ∃ k m', m.insert v = .ok (some (k, m')) ∧ m.Inserted v k m') := by
  by_cases hroom : m.capacity.toNat ≤ m.len
  · exact .inl ⟨hroom, by simp [insert, hroom]⟩
  · refine .inr ⟨Nat.lt_of_not_le hroom, ?_⟩
    obtain ⟨is, hf, hnd, hall⟩ := hm.free
    unfold insert
    rw [if_neg hroom]
    cases hh : m.freeHead with
    | none =>
      -- Every slot is occupied, and a vacant one is appended.
      rw [hh] at hf
      cases hf
      let p : SlotMap α := { m with slots := m.slots.push (.vacant none) }
      have hvac : p.slots[m.slots.size]? = some (.vacant none) := by simp [p]
      have hpall : ∀ j next, p.slots[j]? = some (.vacant next) → j ∈ [m.slots.size] := by
        intro j next hv
        simp only [p, Array.getElem?_push] at hv
        split at hv
        · simp_all
        · exact absurd (hall j next hv) (List.not_mem_nil)
      have hplen : p.len = p.slots.countP Slot.isOccupied := by
        simp [p, Slot.isOccupied, hm.len]
      obtain ⟨k, m', he, hi⟩ := occupy_inserted (m := p) hvac .nil (by simp) hpall hplen
        (Nat.lt_of_not_le hroom) v
      have hget : ∀ k', p.get? k' = m.get? k' := by
        intro k'
        by_cases hk : k'.index = m.slots.size
        · simp [SlotMap.get?, p, hk]
        · simp [SlotMap.get?, p, Array.getElem?_push, hk]
      refine ⟨k, m', he, hi.wellFormed, fun g => ?_, hi.generation, fun k' => ?_, hi.len,
        hi.capacity⟩
      · rw [← hget]; exact hi.vacant g
      · rw [hi.get?, hget]
    | some i =>
      rw [hh] at hf
      cases hf with
      | cons hs hf =>
        obtain ⟨k, m', he, hi⟩ := occupy_inserted hs hf hnd hall hm.len (Nat.lt_of_not_le hroom) v
        refine ⟨k, m', ?_, hi⟩
        simp only [hs]
        exact he

/-- Every insertion takes the next generation. -/
theorem generation_insert {m m' : SlotMap α} {v : α} {k : Key}
    (h : m.insert v = .ok (some (k, m'))) : m'.generation = nextGeneration m.generation := by
  have hocc {p : SlotMap α} {i : Nat} {next : Option Nat}
      (h : p.occupy i next v = .ok (some (k, m'))) :
      m'.generation = nextGeneration p.generation := by
    unfold occupy at h
    obtain ⟨n, -, he⟩ := Except.bind_eq_ok.mp h
    cases he
    rfl
  unfold insert at h
  split at h
  · cases h
  · split at h
    · have he := hocc h
      exact he
    · split at h
      · exact hocc h
      · cases h
      · cases h

/-! ## Removal -/

/-- What a removal of the key `k` does. -/
structure Removed (m : SlotMap α) (k : Key) (m' : SlotMap α) : Prop where
  wellFormed : m'.WellFormed
  get? : ∀ k', m'.get? k' = if k' = k then none else m.get? k'
  len : m'.len + 1 = m.len
  capacity : m'.capacity = m.capacity
  generation : m'.generation = m.generation

theorem remove_stale {m : SlotMap α} {k : Key} (h : m.get? k = none) : m.remove k = .ok none := by
  simp [remove, h]

/-- The map with the slot `i` vacant, in front of the free list. -/
def vacate (m : SlotMap α) (i : Nat) : SlotMap α :=
  { m with
    slots := m.slots.setIfInBounds i (.vacant m.freeHead)
    freeHead := some i
    len := m.len - 1 }

theorem get?_vacate {m : SlotMap α} {k : Key} {v : α} (h : m.get? k = some v) (k' : Key) :
    (m.vacate k.index).get? k' = if k' = k then none else m.get? k' := by
  have hlt := index_lt h
  by_cases hi : k'.index = k.index
  · have hnone : (m.vacate k.index).get? k' = none := by simp [get?, vacate, hi, hlt]
    rw [hnone]
    split
    · rfl
    · rename_i hne
      cases hk : m.get? k' with
      | none => rfl
      | some u => exact absurd (key_eq_of_index hk h hi) hne
  · have hne : k' ≠ k := by rintro rfl; exact hi rfl
    rw [if_neg hne]
    simp [get?, vacate, Ne.symm hi]

theorem WellFormed.vacate {m : SlotMap α} (hm : m.WellFormed) {k : Key} {v : α}
    (h : m.get? k = some v) :
    (m.vacate k.index).WellFormed ∧ (m.vacate k.index).len + 1 = m.len := by
  obtain ⟨is, hf, hnd, hall⟩ := hm.free
  have hs := get?_eq_some.mp h
  have hlt := index_lt h
  have hni : k.index ∉ is := hf.not_mem h
  have hcount := countP_set hs (.vacant m.freeHead)
  have hlen := hm.len
  have hroom := hm.room
  simp only [Slot.isOccupied, Bool.toNat_true, Bool.toNat_false] at hcount
  refine ⟨⟨⟨k.index :: is, .cons ?_ (hf.congr fun j hj => ?_), List.nodup_cons.mpr ⟨hni, hnd⟩,
    fun j next hv => ?_⟩, ?_, ?_⟩, ?_⟩
  · simp [SlotMap.vacate, hlt]
  · have hij : k.index ≠ j := by rintro rfl; exact hni hj
    simp [SlotMap.vacate, hij]
  · by_cases hij : k.index = j
    · simp [hij]
    · exact List.mem_cons_of_mem _ (hall j next (by simpa [SlotMap.vacate, hij] using hv))
  all_goals simp only [SlotMap.vacate]; omega

/-- The value of a live key is taken out. -/
theorem remove_live {m : SlotMap α} (hm : m.WellFormed) {k : Key} {v : α} (h : m.get? k = some v) :
    ∃ m', m.remove k = .ok (some (v, m')) ∧ m.Removed k m' := by
  obtain ⟨hw, hlen⟩ := hm.vacate h
  refine ⟨m.vacate k.index, ?_, hw, get?_vacate h, hlen, rfl, rfl⟩
  unfold remove
  rw [h, ← hlen]
  simp only [Count.pred, vacate]
  rfl

/-! ## Entries -/

theorem mem_entries {m : SlotMap α} {k : Key} {v : α} :
    (k, v) ∈ m.entries ↔ m.get? k = some v := by
  rw [get?_eq_some]
  unfold entries
  rw [List.mem_filterMap]
  constructor
  · rintro ⟨⟨s, i⟩, hmem, he⟩
    rw [List.mem_zipIdx_iff_getElem?] at hmem
    cases s with
    | vacant => cases he
    | occupied g w => cases he; simpa using hmem
  · intro h
    refine ⟨(.occupied k.generation v, k.index), ?_, rfl⟩
    rw [List.mem_zipIdx_iff_getElem?]
    simpa using h

theorem mem_keys {m : SlotMap α} {k : Key} : k ∈ m.keys ↔ ∃ v, m.get? k = some v := by
  simp [keys, mem_entries]

/-- The entries are listed in the order of their slots. -/
theorem entries_pairwise (m : SlotMap α) :
    m.entries.Pairwise fun e e' => e.1.index < e'.1.index := by
  have hidx : (m.slots.toList.zipIdx.map Prod.snd).Pairwise (· < ·) := by
    rw [List.zipIdx_map_snd]; exact List.pairwise_lt_range'
  unfold entries
  rw [List.pairwise_filterMap]
  refine (List.pairwise_map.mp hidx).imp ?_
  rintro ⟨s, i⟩ ⟨s', i'⟩ hlt b hb b' hb'
  cases s <;> cases hb
  cases s' <;> cases hb'
  exact hlt

theorem keys_nodup (m : SlotMap α) : m.keys.Nodup :=
  List.pairwise_map.mpr (m.entries_pairwise.imp fun h e => by rw [e] at h; exact Nat.lt_irrefl _ h)

theorem WellFormed.length_entries {m : SlotMap α} (hm : m.WellFormed) :
    m.entries.length = m.len := by
  have e : m.slots.countP Slot.isOccupied =
      (m.slots.toList.zipIdx.map Prod.fst).countP Slot.isOccupied := by
    rw [List.zipIdx_map_fst, Array.countP_toList]
  rw [hm.len, e, List.countP_map, entries, List.length_filterMap_eq_countP]
  congr 1
  funext ⟨s, i⟩
  cases s <;> rfl

theorem WellFormed.length_keys {m : SlotMap α} (hm : m.WellFormed) : m.keys.length = m.len := by
  rw [keys, List.length_map, hm.length_entries]

end SlotMap

end TcpEngine
