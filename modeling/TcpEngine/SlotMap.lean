import TcpEngine.Fault

/-!
# Slot maps

A slot map keeps values in a vector of slots and hands out a key for each. Slots that become vacant
are linked into a free list and used again, the one vacated last first. A key remembers, beside its
slot, the generation in which the slot was filled. Generations are never repeated before 64 bits
are exhausted, so a key of a removed value does not reach the value that took its slot.

* `insert`: a value into a vacant or new slot, while there is room.
* `get?`, `modify`, `remove`: nothing for a stale key.
* `entries`: what the map holds, in the order of the slots.
-/

namespace TcpEngine

/-- The key of a value in a slot map. -/
structure Key where
  index : Nat
  generation : UInt64
deriving DecidableEq, Repr, Inhabited, Ord

/-- A place for a value. -/
inductive Slot (α : Type) where
  /-- The value stored in a given generation. -/
  | occupied (generation : UInt64) (value : α)
  /-- A link to the next slot of the free list. -/
  | vacant (next : Option Nat)
deriving DecidableEq, Repr

/-- A slot map with at most `capacity` values. `freeHead` is the first slot of the free list, and
`generation` that of the next insertion. -/
structure SlotMap (α : Type) where
  slots : Array (Slot α) := #[]
  freeHead : Option Nat := none
  generation : UInt64 := 1
  len : Nat := 0
  capacity : UInt64
deriving DecidableEq, Repr

namespace SlotMap

variable {α : Type}

/-- The generation behind `g`, which is never 0. -/
def nextGeneration (g : UInt64) : UInt64 := if g + 1 = 0 then 1 else g + 1

/-- The map with room for `capacity` values and none in it. -/
def empty (capacity : UInt64) : SlotMap α := { capacity }

def isEmpty (m : SlotMap α) : Bool := m.len == 0

/-- The value with the key `k`. -/
def get? (m : SlotMap α) (k : Key) : Option α :=
  match m.slots[k.index]? with
  | some (.occupied g v) => if g = k.generation then some v else none
  | _ => none

/-- The map with the value of the key `k` changed by `f`. -/
def modify (m : SlotMap α) (k : Key) (f : α → α) : Option (SlotMap α) :=
  match m.get? k with
  | some v => some { m with slots := m.slots.setIfInBounds k.index (.occupied k.generation (f v)) }
  | none => none

/-- The map with `v` in the vacant slot `i`, whose successor in the free list is `next`. -/
def occupy (m : SlotMap α) (i : Nat) (next : Option Nat) (v : α) :
    Checked (Option (Key × SlotMap α)) := do
  let len ← Count.succ m.len
  return some (⟨i, m.generation⟩,
    { m with
      slots := m.slots.setIfInBounds i (.occupied m.generation v)
      freeHead := next
      generation := nextGeneration m.generation
      len })

/-- A new key and the map with `v` under it, if the map is not full. -/
def insert (m : SlotMap α) (v : α) : Checked (Option (Key × SlotMap α)) :=
  if m.capacity.toNat ≤ m.len then .ok none
  else match m.freeHead with
    | none => occupy { m with slots := m.slots.push (.vacant none) } m.slots.size none v
    | some i => match m.slots[i]? with
      | some (.vacant next) => occupy m i next v
      | some (.occupied ..) => .ok none
      | none => .error .outOfRange

/-- The value with the key `k` and the map without it. The slot becomes the first of the free
list. -/
def remove (m : SlotMap α) (k : Key) : Checked (Option (α × SlotMap α)) :=
  match m.get? k with
  | none => .ok none
  | some v => do
    let len ← Count.pred m.len
    return some (v,
      { m with
        slots := m.slots.setIfInBounds k.index (.vacant m.freeHead)
        freeHead := some k.index
        len })

/-- The entry in the slot `i`, if it is occupied. -/
def entry? : Slot α × Nat → Option (Key × α)
  | (.occupied g v, i) => some (⟨i, g⟩, v)
  | (.vacant _, _) => none

/-- All keys with their values, in the order of the slots. -/
def entries (m : SlotMap α) : List (Key × α) := m.slots.toList.zipIdx.filterMap entry?

/-- All keys, in the order of the slots. -/
def keys (m : SlotMap α) : List Key := m.entries.map Prod.fst

end SlotMap

end TcpEngine
