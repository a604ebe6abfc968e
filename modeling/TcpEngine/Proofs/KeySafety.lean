import Mathlib.Data.List.Perm.Subperm
import TcpEngine.Proofs.SlotMap

/-!
# Keys over runs of slot maps

A run makes calls to slot maps in any order and with any keys, and clones maps. Each map carries its
past, the calls it has answered; a clone has the past of its original.

* `Ideal`: a finite map from keys to values, with the keys that were issued. A past determines one
  (`Past.ideal`), and what the answers to further calls may be (`Ideal.Allows`): an issued key is
  one that was not issued before.
* `Answered`: what a call can make of a map, and `call_answered`: that it makes one of these.
* `Tracked.Sound`: a slot map is the ideal map of its past. Every call keeps this
  (`Tracked.Sound.next`), as long as no more keys were issued than there are generations.
* `run_keeps`: what every call keeps holds after every run.
* `Lawful.stays_stale`: a key that was issued and has no value any more is never used again.
-/

namespace TcpEngine

namespace SlotMap

variable {α : Type}

/-! ## Calls -/

/-- What a slot map is asked for. -/
inductive Call (α : Type) where
  /-- `memory` tells whether there is memory for one more slot. -/
  | insert (v : α) (memory : Bool)
  | get (k : Key)
  /-- The value of a key is changed in its place. -/
  | modify (k : Key) (f : α → α)
  | remove (k : Key)
  | entries

/-- The answer to a call. The value of a key is the one before the call. -/
inductive Answer (α : Type) where
  | key (k : Option Key)
  | value (v : Option α)
  | entries (es : List (Key × α)) (len : Nat)

/-- One call, and its answer. -/
def call (m : SlotMap α) : Call α → Checked (Answer α × SlotMap α)
  | .insert v memory =>
    if m.freeHead = none ∧ memory = false then .ok (.key none, m)
    else do
      match ← m.insert v with
      | none => return (.key none, m)
      | some (k, m') => return (.key (some k), m')
  | .get k => .ok (.value (m.get? k), m)
  | .modify k f => match m.modify k f with
    | none => .ok (.value none, m)
    | some m' => .ok (.value (m.get? k), m')
  | .remove k => do
    match ← m.remove k with
    | none => return (.value none, m)
    | some (v, m') => return (.value (some v), m')
  | .entries => .ok (.entries m.entries m.len, m)

/-- The map answers a call and becomes another one. -/
inductive Answered (m : SlotMap α) : Call α → Answer α → SlotMap α → Prop
  | inserted {v : α} {memory : Bool} {k : Key} {m' : SlotMap α} : m.len < m.capacity.toNat →
    m.insert v = .ok (some (k, m')) → m.Inserted v k m' →
    Answered m (.insert v memory) (.key (some k)) m'
  | refused {v : α} {memory : Bool} : memory = false ∨ m.capacity.toNat ≤ m.len →
    Answered m (.insert v memory) (.key none) m
  | found (k : Key) : Answered m (.get k) (.value (m.get? k)) m
  | modified {k : Key} {v : α} (f : α → α) : m.get? k = some v →
    Answered m (.modify k f) (.value (some v)) (m.store k (f v))
  | unmodified {k : Key} {f : α → α} : m.get? k = none → Answered m (.modify k f) (.value none) m
  | removed {k : Key} {v : α} {m' : SlotMap α} : m.get? k = some v →
    m.remove k = .ok (some (v, m')) → m.Removed k m' →
    Answered m (.remove k) (.value (some v)) m'
  | unremoved {k : Key} : m.get? k = none → Answered m (.remove k) (.value none) m
  | listed : Answered m .entries (.entries m.entries m.len) m

/-- A well-formed map answers every call. -/
theorem call_answered {m : SlotMap α} (hm : m.WellFormed) (c : Call α) :
    ∃ a m', m.call c = .ok (a, m') ∧ m.Answered c a m' := by
  unfold call
  cases c with
  | insert v memory =>
    dsimp only
    split
    · rename_i hmem
      exact ⟨_, _, rfl, .refused (.inl hmem.2)⟩
    · obtain ⟨hfull, he⟩ | ⟨hroom, k, m', he, hi⟩ := insert_cases hm v
      · rw [he]
        exact ⟨_, _, rfl, .refused (.inr hfull)⟩
      · rw [he]
        exact ⟨_, _, rfl, .inserted hroom he hi⟩
  | get k => exact ⟨_, _, rfl, .found k⟩
  | modify k f =>
    dsimp only
    rw [modify_eq]
    cases hk : m.get? k with
    | none => exact ⟨_, _, rfl, .unmodified hk⟩
    | some v => exact ⟨_, _, rfl, .modified f hk⟩
  | remove k =>
    dsimp only
    cases hk : m.get? k with
    | none =>
      rw [remove_stale hk]
      exact ⟨_, _, rfl, .unremoved hk⟩
    | some v =>
      obtain ⟨m', he, hr⟩ := remove_live hm hk
      rw [he]
      exact ⟨_, _, rfl, .removed hk he hr⟩
  | entries => exact ⟨_, _, rfl, .listed⟩

/-- The calls that a map has answered, the last one first. -/
abbrev Past (α : Type) := List (Call α × Answer α)

/-! ## The finite map of a past -/

/-- A finite map from keys to values, and the keys that were issued for it. -/
structure Ideal (α : Type) where
  value : Key → Option α := fun _ => none
  issued : List Key := []

namespace Ideal

/-- The map after a call with a given answer. -/
def next (d : Ideal α) : Call α → Answer α → Ideal α
  | .insert v _, .key (some k) =>
    { value := fun k' => if k' = k then some v else d.value k', issued := k :: d.issued }
  | .modify k f, _ => { d with value := fun k' => if k' = k then (d.value k).map f else d.value k' }
  | .remove k, _ => { d with value := fun k' => if k' = k then none else d.value k' }
  | _, _ => d

/-- At least `capacity` keys have a value. -/
def Full (d : Ideal α) (capacity : Nat) : Prop :=
  ∃ ks : List Key, ks.Nodup ∧ (∀ k ∈ ks, ∃ v, d.value k = some v) ∧ capacity ≤ ks.length

/-- What the map with room for `capacity` values may answer. -/
def Allows (d : Ideal α) (capacity : Nat) : Call α → Answer α → Prop
  | .insert _ memory, .key none => memory = false ∨ d.Full capacity
  | .insert _ _, .key (some k) => k ∉ d.issued ∧ ¬ d.Full capacity
  | .get k, .value v => v = d.value k
  | .modify k _, .value v => v = d.value k
  | .remove k, .value v => v = d.value k
  | .entries, .entries es len => (∀ k v, (k, v) ∈ es ↔ d.value k = some v) ∧
    (es.Pairwise fun e e' => e.1.index < e'.1.index) ∧ es.length = len
  | _, _ => False

theorem issued_next (d : Ideal α) (c : Call α) (a : Answer α) {k : Key} (hk : k ∈ d.issued) :
    k ∈ (d.next c a).issued := by
  unfold next
  split
  · exact List.mem_cons_of_mem _ hk
  · exact hk
  · exact hk
  · exact hk

/-- A call gives a value only to a key that it issues. -/
theorem value_next {d : Ideal α} {c : Call α} {a : Answer α} {k : Key} {v : α}
    (hv : d.value k = none) (h : (d.next c a).value k = some v) :
    ∃ w memory, c = .insert w memory ∧ a = .key (some k) := by
  cases c with
  | insert w memory =>
    rcases a with ⟨_ | k'⟩ | _ | _
    · exact absurd (hv.symm.trans h) nofun
    · by_cases e : k = k'
      · subst e
        exact ⟨w, memory, rfl, rfl⟩
      · simp [next, e, hv] at h
    · exact absurd (hv.symm.trans h) nofun
    · exact absurd (hv.symm.trans h) nofun
  | modify k' f =>
    by_cases e : k = k'
    · subst e; simp [next, hv] at h
    · simp [next, e, hv] at h
  | remove k' => simp [next, hv] at h
  | get _ => exact absurd (hv.symm.trans h) nofun
  | entries => exact absurd (hv.symm.trans h) nofun

end Ideal

namespace Past

/-- The finite map that a past describes. -/
def ideal : Past α → Ideal α
  | [] => {}
  | (c, a) :: past => (ideal past).next c a

/-- Every answer is one that the finite map of the calls before may give. -/
def Lawful (capacity : Nat) : Past α → Prop
  | [] => True
  | (c, a) :: past => Lawful capacity past ∧ (ideal past).Allows capacity c a

theorem issued_mono (new : Past α) {old : Past α} {k : Key} (hk : k ∈ old.ideal.issued) :
    k ∈ (ideal (new ++ old)).issued := by
  induction new with
  | nil => exact hk
  | cons ca new ih => exact Ideal.issued_next _ ca.1 ca.2 ih

/-- A key that was issued and has no value is never used again. -/
theorem Lawful.stays_stale {capacity : Nat} {new old : Past α}
    (h : Lawful capacity (new ++ old)) {k : Key} (hk : k ∈ old.ideal.issued)
    (hv : old.ideal.value k = none) : (ideal (new ++ old)).value k = none := by
  induction new with
  | nil => exact hv
  | cons ca new ih =>
    obtain ⟨c, a⟩ := ca
    cases hn : ((ideal (new ++ old)).next c a).value k with
    | none => exact hn
    | some v =>
      obtain ⟨w, memory, rfl, rfl⟩ := Ideal.value_next (ih h.1) hn
      exact absurd (issued_mono new hk) h.2.1

/-- A key with a value was issued. -/
theorem issued_of_value (past : Past α) {k : Key} {v : α} (h : past.ideal.value k = some v) :
    k ∈ past.ideal.issued := by
  induction past generalizing v with
  | nil => cases h
  | cons ca past ih =>
    obtain ⟨c, a⟩ := ca
    cases hv : (ideal past).value k with
    | none =>
      obtain ⟨w, memory, rfl, rfl⟩ := Ideal.value_next hv h
      exact List.mem_cons_self ..
    | some w => exact Ideal.issued_next _ c a (ih hv)

end Past

/-! ## A map and its past -/

/-- A slot map that was empty once, with its past since then. -/
structure Tracked (α : Type) where
  capacity : UInt64
  past : Past α := []
  map : SlotMap α := .empty capacity

namespace Tracked

/-- One more call. -/
def next (t : Tracked α) (c : Call α) : Checked (Tracked α) := do
  let (a, map) ← t.map.call c
  return { t with past := (c, a) :: t.past, map }

/-- The map is the finite map of its past. Keys are issued in the order of their generations, as
long as there are any. -/
structure Sound (t : Tracked α) : Prop where
  wellFormed : t.map.WellFormed
  capacity : t.map.capacity = t.capacity
  value : ∀ k, t.map.get? k = t.past.ideal.value k
  generation : t.past.ideal.issued.length < UInt64.size - 1 →
    t.map.generation.toNat = t.past.ideal.issued.length + 1
  issued : t.past.ideal.issued.length < UInt64.size →
    ∀ k ∈ t.past.ideal.issued, k.generation.toNat ≤ t.past.ideal.issued.length
  lawful : t.past.ideal.issued.length < UInt64.size → t.past.Lawful t.capacity.toNat

end Tracked

theorem toNat_nextGeneration {g : UInt64} (h : g.toNat < UInt64.size - 1) :
    (nextGeneration g).toNat = g.toNat + 1 := by
  have hadd : (g + 1).toNat = g.toNat + 1 := by
    rw [UInt64.toNat_add]
    refine Nat.mod_eq_of_lt ?_
    simp only [UInt64.size] at h
    simp only [UInt64.toNat_one]
    omega
  have hne : g + 1 ≠ 0 := by
    intro h0
    rw [h0] at hadd
    simp at hadd
  unfold nextGeneration
  rw [if_neg hne, hadd]

namespace Tracked

section

variable {t : Tracked α}

/-- An empty map is sound. -/
theorem sound_start (capacity : UInt64) : ({ capacity } : Tracked α).Sound where
  wellFormed := empty_wellFormed capacity
  capacity := rfl
  value _ := rfl
  generation _ := rfl
  issued _ := by
    intro k hk
    cases hk
  lawful _ := trivial

/-- The finite map is full when the slot map is. -/
theorem Sound.full_iff (h : t.Sound) (n : Nat) : t.past.ideal.Full n ↔ n ≤ t.map.len := by
  rw [← h.wellFormed.length_keys]
  constructor
  · rintro ⟨ks, hnd, hlive, hn⟩
    have hsub : ks ⊆ t.map.keys := fun k hk => by
      obtain ⟨v, hv⟩ := hlive k hk
      exact mem_keys.mpr ⟨v, (h.value k).trans hv⟩
    exact Nat.le_trans hn (List.subperm_of_subset hnd hsub).length_le
  · intro hn
    refine ⟨t.map.keys, t.map.keys_nodup, fun k hk => ?_, hn⟩
    obtain ⟨v, hv⟩ := mem_keys.mp hk
    exact ⟨v, (h.value k).symm.trans hv⟩

/-- A call that issues no key keeps the map sound, if it leaves the finite map of the past behind
and its answer is allowed. -/
theorem Sound.step (h : t.Sound) {c : Call α} {a : Answer α} {m : SlotMap α}
    (hissued : (t.past.ideal.next c a).issued = t.past.ideal.issued) (hw : m.WellFormed)
    (hcap : m.capacity = t.map.capacity) (hgen : m.generation = t.map.generation)
    (hvalue : ∀ k, m.get? k = (t.past.ideal.next c a).value k)
    (hallows : t.past.ideal.Allows t.capacity.toNat c a) :
    ({ t with past := (c, a) :: t.past, map := m } : Tracked α).Sound where
  wellFormed := hw
  capacity := hcap.trans h.capacity
  value := hvalue
  generation := by
    show (t.past.ideal.next c a).issued.length < _ → _ = (t.past.ideal.next c a).issued.length + 1
    rw [hissued, hgen]
    exact h.generation
  issued := by
    show (t.past.ideal.next c a).issued.length < _ →
      ∀ k ∈ (t.past.ideal.next c a).issued, _ ≤ (t.past.ideal.next c a).issued.length
    rw [hissued]
    exact h.issued
  lawful := by
    show (t.past.ideal.next c a).issued.length < _ → _
    rw [hissued]
    exact fun hlt => ⟨h.lawful hlt, hallows⟩

/-- An insertion issues a key that was not issued before. -/
theorem Sound.inserted (h : t.Sound) {v : α} {memory : Bool} {k : Key} {m : SlotMap α}
    (he : t.map.insert v = .ok (some (k, m))) (hroom : t.map.len < t.map.capacity.toNat)
    (hm : t.map.Inserted v k m) :
    ({ t with past := (.insert v memory, .key (some k)) :: t.past, map := m } :
      Tracked α).Sound := by
  have hnew (hlt : t.past.ideal.issued.length + 1 < UInt64.size) : k ∉ t.past.ideal.issued := by
    intro hk
    have hold := h.issued (by omega) k hk
    have hgen := h.generation (by omega)
    rw [hm.generation] at hold
    omega
  refine ⟨hm.wellFormed, hm.capacity.trans h.capacity, fun k' => ?_, fun hlt => ?_, fun hlt => ?_,
    fun hlt => ?_⟩
  · rw [hm.get?, h.value]
    rfl
  · have hlt' : t.past.ideal.issued.length + 1 < UInt64.size - 1 := hlt
    have hgen := h.generation (by omega)
    show m.generation.toNat = t.past.ideal.issued.length + 1 + 1
    rw [generation_insert he, toNat_nextGeneration (by omega), hgen]
  · -- The new key has the generation that the counter had, and all others have lower ones.
    have hlt' : t.past.ideal.issued.length + 1 < UInt64.size := hlt
    have hgen := h.generation (by omega)
    rintro k' hk'
    show k'.generation.toNat ≤ t.past.ideal.issued.length + 1
    rcases List.mem_cons.mp hk' with rfl | hk'
    · exact Nat.le_of_eq (by rw [hm.generation, hgen])
    · have hold := h.issued (by omega) k' hk'
      omega
  · have hlt' : t.past.ideal.issued.length + 1 < UInt64.size := hlt
    refine ⟨h.lawful (by omega), hnew hlt', fun hfull => ?_⟩
    rw [h.full_iff, ← h.capacity] at hfull
    omega

theorem Sound.answered (h : t.Sound) {c : Call α} {a : Answer α} {m : SlotMap α}
    (hm : t.map.Answered c a m) :
    ({ t with past := (c, a) :: t.past, map := m } : Tracked α).Sound := by
  cases hm with
  | inserted hroom he hi => exact h.inserted he hroom hi
  | refused hwhy =>
    refine h.step rfl h.wellFormed rfl rfl h.value (hwhy.imp_right fun hfull => ?_)
    rw [h.full_iff, ← h.capacity]
    exact hfull
  | found k => exact h.step rfl h.wellFormed rfl rfl h.value (h.value k)
  | @modified k v f hk =>
    refine h.step rfl (h.wellFormed.store hk _) rfl rfl (fun k' => ?_) (hk.symm.trans (h.value k))
    have hv := (h.value k).symm.trans hk
    rw [get?_store hk]
    by_cases e : k' = k
    · simp [Ideal.next, e, hv]
    · simpa [Ideal.next, e] using h.value k'
  | @unmodified k f hk =>
    refine h.step rfl h.wellFormed rfl rfl (fun k' => ?_) (hk.symm.trans (h.value k))
    have hv := (h.value k).symm.trans hk
    by_cases e : k' = k
    · subst e; simp [Ideal.next, hk, hv]
    · simpa [Ideal.next, e] using h.value k'
  | @removed k v _ hk _ hr =>
    refine h.step rfl hr.wellFormed hr.capacity hr.generation (fun k' => ?_)
      (hk.symm.trans (h.value k))
    rw [hr.get?, h.value]
    rfl
  | @unremoved k hk =>
    refine h.step rfl h.wellFormed rfl rfl (fun k' => ?_) (hk.symm.trans (h.value k))
    by_cases e : k' = k
    · subst e; simp [Ideal.next, hk]
    · simpa [Ideal.next, e] using h.value k'
  | listed =>
    have hmem (k : Key) (v : α) : (k, v) ∈ t.map.entries ↔ t.past.ideal.value k = some v := by
      rw [mem_entries, h.value]
    exact h.step rfl h.wellFormed rfl rfl h.value
      ⟨hmem, t.map.entries_pairwise, h.wellFormed.length_entries⟩

/-- A call does not fault. -/
theorem next_answered (hm : t.map.WellFormed) (c : Call α) : ∃ a m, t.map.Answered c a m ∧
    t.next c = .ok { t with past := (c, a) :: t.past, map := m } := by
  obtain ⟨a, m, he, ha⟩ := call_answered hm c
  exact ⟨a, m, ha, by rw [Tracked.next, he]; rfl⟩

/-- A call keeps the map sound. -/
theorem Sound.next (h : t.Sound) (c : Call α) : ∃ t', t.next c = .ok t' ∧ t'.Sound := by
  obtain ⟨a, m, ha, he⟩ := next_answered h.wellFormed c
  exact ⟨_, he, h.answered ha⟩

end

end Tracked

/-! ## Runs -/

/-- What can happen to the maps of a run. A map is named by its number. -/
inductive Action (α : Type) where
  | call (i : Nat) (c : Call α)
  /-- The clone gets the next number. -/
  | clone (i : Nat)

/-- One action. A number that no map has is ignored. -/
def act (ts : List (Tracked α)) : Action α → Checked (List (Tracked α))
  | .call i c => match ts[i]? with
    | none => .ok ts
    | some t => do
      let t ← t.next c
      return ts.set i t
  | .clone i => .ok (ts ++ ts[i]?.toList)

/-- Actions on empty maps, one after the other. -/
def run (capacities : List UInt64) (actions : List (Action α)) : Checked (List (Tracked α)) :=
  actions.foldlM act (capacities.map fun capacity => { capacity })

section

variable {P : Tracked α → Prop} (hnext : ∀ t c, P t → ∃ t', t.next c = .ok t' ∧ P t')

include hnext

/-- What every call keeps, every action keeps of all maps. -/
theorem act_keeps {ts : List (Tracked α)} (h : ∀ t ∈ ts, P t) (x : Action α) :
    ∃ ts', act ts x = .ok ts' ∧ ∀ t ∈ ts', P t := by
  unfold act
  cases x with
  | call i c =>
    dsimp only
    cases hi : ts[i]? with
    | none => exact ⟨ts, rfl, h⟩
    | some t =>
      obtain ⟨t', he, hs⟩ := hnext t c (h t (List.mem_of_getElem? hi))
      dsimp only
      rw [he]
      refine ⟨ts.set i t', rfl, fun u hu => ?_⟩
      rcases List.mem_or_eq_of_mem_set hu with hu | rfl
      · exact h u hu
      · exact hs
  | clone i =>
    refine ⟨_, rfl, fun t ht => ?_⟩
    rcases List.mem_append.mp ht with ht | ht
    · exact h t ht
    · exact h t (List.mem_of_getElem? (Option.mem_toList.mp ht))

/-- What holds of empty maps and is kept by every call holds of all maps of a run. -/
theorem run_keeps (hstart : ∀ capacity, P { capacity }) (capacities : List UInt64)
    (actions : List (Action α)) :
    ∃ ts, run capacities actions = .ok ts ∧ ∀ t ∈ ts, P t := by
  have hall : ∀ t ∈ capacities.map fun capacity => ({ capacity } : Tracked α), P t := by
    intro t ht
    obtain ⟨capacity, -, rfl⟩ := List.mem_map.mp ht
    exact hstart capacity
  unfold run
  revert hall
  generalize (capacities.map fun capacity => ({ capacity } : Tracked α)) = ts
  intro h
  induction actions generalizing ts with
  | nil => exact ⟨ts, rfl, h⟩
  | cons x actions ih =>
    obtain ⟨ts₁, he, h₁⟩ := act_keeps hnext h x
    rw [List.foldlM_cons, he, Except.ok_bind]
    exact ih ts₁ h₁

end

theorem run_sound (capacities : List UInt64) (actions : List (Action α)) :
    ∃ ts, run capacities actions = .ok ts ∧ ∀ t ∈ ts, t.Sound :=
  run_keeps (fun _ c h => h.next c) Tracked.sound_start capacities actions

/-- A slot map is what its past says. -/
structure Tracked.Faithful (t : Tracked α) : Prop where
  /-- Every answer was that of a finite map, and every new key was none issued before. -/
  lawful : t.past.Lawful t.capacity.toNat
  /-- A key gives the value that was last stored under it, unless it was removed since. -/
  get? : ∀ k, t.map.get? k = t.past.ideal.value k
  issued : ∀ k v, t.map.get? k = some v → k ∈ t.past.ideal.issued
  /-- Through a key that was once removed nothing is reached or changed any more. -/
  stale : ∀ new old k, t.past = new ++ old → k ∈ old.ideal.issued → old.ideal.value k = none →
    t.map.call (.get k) = .ok (.value none, t.map) ∧
    (∀ f, t.map.call (.modify k f) = .ok (.value none, t.map)) ∧
    t.map.call (.remove k) = .ok (.value none, t.map)
  /-- The keys that give a value are those listed. -/
  listed : ∀ k v, t.map.get? k = some v ↔ (k, v) ∈ t.map.entries
  ordered : t.map.entries.Pairwise fun e e' => e.1.index < e'.1.index
  length : t.map.entries.length = t.map.len

theorem call_stale {m : SlotMap α} {k : Key} (hk : m.get? k = none) :
    m.call (.get k) = .ok (.value none, m) ∧ (∀ f, m.call (.modify k f) = .ok (.value none, m)) ∧
      m.call (.remove k) = .ok (.value none, m) := by
  refine ⟨?_, fun f => ?_, ?_⟩
  · simp only [call, hk]
  · simp only [call, modify_eq, hk, Option.map_none]
  · simp only [call, remove_stale hk, Except.ok_bind]
    rfl

/-- After every run, each map is what its past says, if it was made no more insertions than there
are generations. -/
theorem run_faithful (capacities : List UInt64) (actions : List (Action α)) :
    ∃ ts, run capacities actions = .ok ts ∧
      ∀ t ∈ ts, t.past.ideal.issued.length < UInt64.size → t.Faithful := by
  obtain ⟨ts, he, hs⟩ := run_sound capacities actions
  refine ⟨ts, he, fun t ht hlt => ?_⟩
  have h := hs t ht
  refine ⟨h.lawful hlt, h.value, fun k v hk => ?_, fun new old k hp hk hv => ?_,
    fun k v => mem_entries.symm, t.map.entries_pairwise, h.wellFormed.length_entries⟩
  · exact t.past.issued_of_value ((h.value k).symm.trans hk)
  · have hl := h.lawful hlt
    rw [hp] at hl
    have hnone := hl.stays_stale hk hv
    rw [← hp] at hnone
    exact call_stale ((h.value k).trans hnone)

/-- The only slot of a map is used twice, and the map is cloned. -/
theorem run_faithful_reuse : ∃ t : Tracked Nat,
    run [1] [.call 0 (.insert 5 true), .call 0 (.remove ⟨0, 1⟩), .call 0 (.insert 6 true),
      .clone 0] = .ok [t, t] ∧
    t.past.ideal.issued = [⟨0, 2⟩, ⟨0, 1⟩] ∧ t.past.ideal.issued.length < UInt64.size ∧
    t.Faithful := by
  refine ⟨_, rfl, rfl, by decide, ?_⟩
  obtain ⟨ts, he, h⟩ := run_faithful [1] [.call 0 (.insert 5 true), .call 0 (.remove ⟨0, 1⟩),
    .call 0 (.insert 6 true), .clone 0]
  cases he
  exact h _ (List.mem_cons_self ..) (by decide)

end SlotMap

end TcpEngine
