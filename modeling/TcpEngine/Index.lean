import TcpEngine.Connection
import TcpEngine.SlotMap

/-!
# The index of connections by four-tuple

A finite map from four-tuples to keys. A later registration of a tuple replaces the earlier one.
-/

namespace TcpEngine

/-- The keys that four-tuples are registered with. -/
structure Index where
  bindings : List (FourTuple × Key) := []
deriving DecidableEq, Repr, Inhabited

namespace Index

/-- The key with which `t` is registered. -/
def find? (x : Index) (t : FourTuple) : Option Key := x.bindings.lookup t

/-- The index without a registration of `t`. -/
def erase (x : Index) (t : FourTuple) : Index := ⟨x.bindings.filter fun b => b.1 != t⟩

/-- The index with `t` registered with `k`. -/
def insert (x : Index) (t : FourTuple) (k : Key) : Index := ⟨(t, k) :: (x.erase t).bindings⟩

@[simp] theorem find?_erase (x : Index) (t u : FourTuple) :
    (x.erase t).find? u = if u = t then none else x.find? u := by
  obtain ⟨bs⟩ := x
  simp only [find?, erase]
  induction bs with
  | nil => simp
  | cons b bs ih =>
    obtain ⟨v, k⟩ := b
    by_cases hu : u = v
    · subst hu
      by_cases ht : u = t
      · simpa [ht] using ih
      · simp [ht]
    · have huv : (u == v) = false := by simpa using hu
      by_cases hv : v = t
      · subst hv
        simpa [hu, List.lookup_cons, huv] using ih
      · simpa [hv, List.lookup_cons, huv] using ih

@[simp] theorem find?_insert (x : Index) (t u : FourTuple) (k : Key) :
    (x.insert t k).find? u = if u = t then some k else x.find? u := by
  have h := find?_erase x t u
  by_cases hu : u = t
  · simp [find?, insert, hu]
  · have hut : (u == t) = false := by simpa using hu
    simpa [find?, insert, hu, List.lookup_cons, hut] using h

end Index

end TcpEngine
