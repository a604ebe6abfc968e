/-!
# Faults of checked operations

Some operations are defined only on part of their arguments: reading a field that lies beyond the
end of a buffer, copying between strings of different lengths, a sum that does not fit its
accumulator. They return a `Checked` value, which is either a result or the `Fault` that stops the
computation. A fault is not an error that a caller handles: whatever meets one goes no further.

* `Checked.assert`: the fault of a condition that does not hold.
* `Except.ok_bind`, `Except.bind_eq_ok`, `Except.map_eq_ok`: what follows an operation, and what
  came before, whatever its errors are.
* `Count.add?`, `Count.succ`, `Count.pred`: arithmetic on 64-bit counts.
-/

namespace TcpEngine

/-- Why a checked operation cannot go on. -/
inductive Fault where
  /-- A position beyond the end of a string of octets. -/
  | outOfRange
  /-- A copy between strings of different lengths. -/
  | lengthMismatch
  /-- A number that does not fit the word it is kept in. -/
  | overflow
  /-- A condition that the code relies on does not hold. -/
  | assertion
deriving DecidableEq, Repr

/-- A result, or the fault that prevents it. -/
abbrev Checked (α : Type) := Except Fault α

/-- Nothing if `p` holds, the fault `f` otherwise. -/
def Checked.assert (p : Prop) [Decidable p] (f : Fault) : Checked Unit :=
  if p then .ok () else .error f

namespace Except

variable {ε α β : Type}

@[simp] theorem ok_bind (a : α) (f : α → Except ε β) : (Except.ok a >>= f) = f a := rfl

@[simp] theorem error_bind (e : ε) (f : α → Except ε β) : (Except.error e >>= f) = .error e := rfl

@[simp] theorem pure_eq (a : α) : (pure a : Except ε α) = .ok a := rfl

theorem bind_eq_ok {x : Except ε α} {f : α → Except ε β} {b : β} :
    (x >>= f) = .ok b ↔ ∃ a, x = .ok a ∧ f a = .ok b := by
  cases x with
  | error e => simp
  | ok a => simp

theorem map_eq_ok {x : Except ε α} {f : α → β} {b : β} :
    (f <$> x) = .ok b ↔ ∃ a, x = .ok a ∧ f a = b := by
  cases x with
  | error e => exact iff_of_false nofun nofun
  | ok a => simp [Functor.map, Except.map]

end Except

namespace Count

/-- The sum of two 64-bit counts, if it is one. -/
def add? (a b : Nat) : Option Nat :=
  if a + b < UInt64.size then some (a + b) else none

/-- One more than a 64-bit count. -/
def succ (n : Nat) : Checked Nat :=
  match add? n 1 with
  | some m => .ok m
  | none => .error .overflow

/-- One less than a count. -/
def pred : Nat → Checked Nat
  | 0 => .error .overflow
  | n + 1 => .ok n

end Count

end TcpEngine
