import TcpEngine.Proofs.SlotMap

/-!
# The order in which slots are filled

How a slot map lies in memory shows in one thing only: which slot the next insertion takes. Vacant
slots come first, the one vacated last before the others, and new slots follow them.

* `FreeList.insert`, `FreeList.remove`: what insertions and removals make of the free list.
* `Fills`: the slots that the next insertions take, in order.
* `Fills.insert`, `Fills.remove`: an insertion takes the first of them, and a removal puts its slot
  in front. So an insertion that is taken back leaves the order as it was.
* `entries_eq`: maps with the same values under all keys list the same entries.
-/

namespace TcpEngine

namespace SlotMap

variable {α : Type} {m m' : SlotMap α} {k : Key} {v : α} {s : Nat → Nat}

/-- The slot of the `n`-th insertion from now, from 0, if `is` are vacant and there are `size`. -/
def place (is : List Nat) (size n : Nat) : Nat := is.getD n (size + (n - is.length))

theorem place_cons (i : Nat) (is : List Nat) (size n : Nat) :
    place (i :: is) size (n + 1) = place is size n := by
  simp [place]

/-- With nothing vacant, a new slot is taken. -/
theorem place_nil (size n : Nat) : place [] size (n + 1) = place [] (size + 1) n := by
  simp only [place, List.getD_nil, List.length_nil]
  omega

/-- The next insertions take the slots `s 0`, `s 1` and so on, if nothing is removed. -/
def Fills (m : SlotMap α) (s : Nat → Nat) : Prop :=
  ∃ is, FreeList m.slots m.freeHead is ∧ is.Nodup ∧ s = place is m.slots.size

theorem WellFormed.fills (h : m.WellFormed) : ∃ s, m.Fills s := by
  obtain ⟨is, hf, hnd, -⟩ := h.free
  exact ⟨_, is, hf, hnd, rfl⟩

/-- What an insertion into the vacant slot `i` writes. -/
theorem occupy_eq_ok {p : SlotMap α} {i : Nat} {next : Option Nat}
    (h : p.occupy i next v = .ok (some (k, m'))) : k.index = i ∧
      m'.slots = p.slots.setIfInBounds i (.occupied p.generation v) ∧ m'.freeHead = next := by
  unfold occupy at h
  obtain ⟨len, -, he⟩ := Except.bind_eq_ok.mp h
  cases he
  exact ⟨rfl, rfl, rfl⟩

/-- An insertion takes the first slot of the free list off it, or a new slot if there is none. -/
theorem FreeList.insert {is : List Nat} (hf : FreeList m.slots m.freeHead is) (hnd : is.Nodup)
    (he : m.insert v = .ok (some (k, m'))) :
    (is = [] ∧ k.index = m.slots.size ∧ m'.slots.size = m.slots.size + 1 ∧
      FreeList m'.slots m'.freeHead []) ∨
    ∃ js, is = k.index :: js ∧ m'.slots.size = m.slots.size ∧
      FreeList m'.slots m'.freeHead js := by
  unfold SlotMap.insert at he
  split at he
  · cases he
  · cases hh : m.freeHead with
    | none =>
      rw [hh] at he hf
      cases hf
      obtain ⟨hk, hs, hhead⟩ := occupy_eq_ok he
      refine .inl ⟨rfl, hk, by rw [hs]; simp, ?_⟩
      rw [hhead]
      exact .nil
    | some i =>
      rw [hh] at he hf
      cases hf with
      | @cons _ next js hi hf =>
        simp only [hi] at he
        obtain ⟨rfl, hs, hhead⟩ := occupy_eq_ok he
        have hni := (List.nodup_cons.mp hnd).1
        refine .inr ⟨js, rfl, by rw [hs]; simp, ?_⟩
        rw [hhead, hs]
        refine hf.congr fun j hj => ?_
        have hij : k.index ≠ j := by
          rintro rfl
          exact hni hj
        simp [hij]

/-- A removal puts its slot in front of the free list. -/
theorem FreeList.remove {is : List Nat} (hf : FreeList m.slots m.freeHead is)
    (he : m.remove k = .ok (some (v, m'))) : k.index ∉ is ∧ m'.slots.size = m.slots.size ∧
      FreeList m'.slots m'.freeHead (k.index :: is) := by
  unfold SlotMap.remove at he
  split at he
  · cases he
  · rename_i w hk
    obtain ⟨len, -, he⟩ := Except.bind_eq_ok.mp he
    cases he
    have hni : k.index ∉ is := hf.not_mem hk
    refine ⟨hni, by simp, .cons ?_ (hf.congr fun j hj => ?_)⟩
    · simp [index_lt hk]
    · have hij : k.index ≠ j := by
        rintro rfl
        exact hni hj
      simp [hij]

theorem Fills.insert (h : m.Fills s) (he : m.insert v = .ok (some (k, m'))) :
    k.index = s 0 ∧ m'.Fills fun n => s (n + 1) := by
  obtain ⟨is, hf, hnd, rfl⟩ := h
  obtain ⟨rfl, hk, hsize, hf'⟩ | ⟨js, rfl, hsize, hf'⟩ := hf.insert hnd he
  · refine ⟨by simp [hk, place], [], hf', List.nodup_nil, ?_⟩
    funext n
    rw [place_nil, hsize]
  · refine ⟨by simp [place], js, hf', (List.nodup_cons.mp hnd).2, ?_⟩
    funext n
    rw [place_cons, hsize]

theorem Fills.remove (h : m.Fills s) (he : m.remove k = .ok (some (v, m'))) :
    m'.Fills fun
      | 0 => k.index
      | n + 1 => s n := by
  obtain ⟨is, hf, hnd, rfl⟩ := h
  obtain ⟨hni, hsize, hf'⟩ := hf.remove he
  refine ⟨k.index :: is, hf', List.nodup_cons.mpr ⟨hni, hnd⟩, ?_⟩
  funext n
  cases n with
  | zero => simp [place]
  | succ n => rw [place_cons, hsize]

/-- The values under the keys determine the list of entries. -/
theorem entries_eq (h : ∀ k, m'.get? k = m.get? k) : m'.entries = m.entries := by
  have hnd (m : SlotMap α) : m.entries.Nodup :=
    (List.pairwise_map.mp m.keys_nodup).imp fun h e => h (congrArg Prod.fst e)
  have hperm : m'.entries.Perm m.entries :=
    (List.perm_ext_iff_of_nodup (hnd m') (hnd m)).mpr fun ⟨k, v⟩ => by
      rw [mem_entries, mem_entries, h]
  refine hperm.eq_of_pairwise ?_ m'.entries_pairwise m.entries_pairwise
  intro e e' _ _ hlt hlt'
  exact absurd hlt (Nat.lt_asymm hlt')

end SlotMap

end TcpEngine
