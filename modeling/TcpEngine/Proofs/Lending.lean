import Mathlib.Algebra.BigOperators.Group.List.Basic
import Mathlib.Algebra.GroupWithZero.Nat
import Mathlib.Data.List.Induction
import TcpEngine.Proofs.ArenaDiscipline

/-!
# The account of a budget

What a budget makes of requests and returns in any order. A lender is a budget together with the
lengths of the buffers that it has given and that are still out.

* `Budget.allocate_within`: within the limit a request is granted, beyond it nothing changes.
* `Lender.Sound`: what is held never exceeds the peak, nor the peak the limit. Every call keeps
  this, also one that returns a buffer from elsewhere (`Lender.Sound.next`).
* `Lender.Accounts`: what is held is the sum of the lengths that are out, and the peak is the
  highest sum so far. Every call keeps this that returns no buffer but one that is out
  (`Lender.Accounts.snoc`).
* `Budget.keeps_account`: both after any calls.
-/

namespace TcpEngine

namespace Budget

/-- What a budget is asked for. -/
inductive Call where
  | allocate (len : Nat)
  /-- A buffer is returned, whatever it holds and wherever it came from. -/
  | release (b : Octets)

/-- A request for what can be addressed is granted if and only if the limit allows it. -/
theorem allocate_within {a : Budget} {limit : UInt64} (ha : a.limit = limit.toNat) {len : Nat}
    (hlen : len ≤ Unbounded.longest) :
    a.allocate len = if a.held + len ≤ limit.toNat then
      (some (List.replicate len 0),
        { a with held := a.held + len, peak := max a.peak (a.held + len) })
      else (none, a) := by
  split
  · rename_i hle
    exact allocate_granted ⟨Nat.lt_of_le_of_lt hle limit.toNat_lt_size, ha ▸ hle, hlen⟩
  · rename_i hgt
    exact allocate_refused fun h => hgt (ha ▸ h.2.1)

/-- A request is granted as asked for, or changes nothing. -/
theorem allocate_cases (a : Budget) (len : Nat) :
    a.allocate len = (none, a) ∨ a.held + len ≤ a.limit ∧ a.allocate len =
      (some (List.replicate len 0),
        { a with held := a.held + len, peak := max a.peak (a.held + len) }) := by
  by_cases h : a.Allows len
  · exact .inr ⟨h.2.1, allocate_granted h⟩
  · exact .inl (allocate_refused h)

end Budget

/-- A budget, and the lengths of the buffers that it has given and that are out. Of two buffers of
one length it does not matter which is returned. -/
structure Lender where
  budget : Budget
  out : List Nat := []

namespace Lender

/-- One call. A buffer that is not out is returned all the same. -/
def next (s : Lender) : Budget.Call → Lender
  | .allocate len => match s.budget.allocate len with
    | (some b, budget) => { budget, out := b.length :: s.out }
    | (none, budget) => { s with budget }
  | .release b => { budget := s.budget.release b, out := s.out.erase b.length }

/-- Calls to a new budget, one after the other. -/
def after (limit : UInt64) (cs : List Budget.Call) : Lender :=
  cs.foldl next { budget := { limit := limit.toNat } }

/-- The calls return no buffers but those that are out. -/
def ReturnsOwn : Lender → List Budget.Call → Prop
  | _, [] => True
  | s, c :: cs => (∀ b, c = .release b → b.length ∈ s.out) ∧ ReturnsOwn (s.next c) cs

variable {limit : UInt64} {s : Lender} {c : Budget.Call} {cs : List Budget.Call}

theorem after_snoc (limit : UInt64) (cs : List Budget.Call) (c : Budget.Call) :
    after limit (cs ++ [c]) = (after limit cs).next c := by
  rw [after, List.foldl_append]
  rfl

theorem returnsOwn_snoc : s.ReturnsOwn (cs ++ [c]) ↔
    s.ReturnsOwn cs ∧ ∀ b, c = .release b → b.length ∈ (cs.foldl next s).out := by
  induction cs generalizing s with
  | nil => simp [ReturnsOwn]
  | cons c' cs ih =>
    rw [List.cons_append, ReturnsOwn, ReturnsOwn, ih, and_assoc]
    rfl

/-! ## Limit and peak -/

/-- The counts are in order. -/
structure Sound (limit : UInt64) (s : Lender) : Prop where
  limit_eq : s.budget.limit = limit.toNat
  held_le : s.budget.held ≤ s.budget.peak
  peak_le : s.budget.peak ≤ limit.toNat

theorem Sound.next (h : s.Sound limit) (c : Budget.Call) : (s.next c).Sound limit := by
  obtain ⟨hlimit, hheld, hpeak⟩ := h
  unfold Lender.next
  cases c with
  | allocate len =>
    obtain he | ⟨hle, he⟩ := s.budget.allocate_cases len
    · simp only [he]
      exact ⟨hlimit, hheld, hpeak⟩
    · simp only [he]
      rw [hlimit] at hle
      exact ⟨hlimit, Nat.le_max_right .., Nat.max_le.mpr ⟨hpeak, hle⟩⟩
  | release b => exact ⟨hlimit, Nat.le_trans (Nat.sub_le ..) hheld, hpeak⟩

theorem sound_after (limit : UInt64) (cs : List Budget.Call) : (after limit cs).Sound limit := by
  induction cs using List.reverseRecOn with
  | nil => exact ⟨rfl, Nat.le_refl _, Nat.zero_le _⟩
  | append_singleton cs c ih =>
    rw [after_snoc]
    exact ih.next c

/-! ## What is out -/

/-- The counts are those of the buffers that are and were out. -/
structure Accounts (limit : UInt64) (cs : List Budget.Call) : Prop where
  held_eq : (after limit cs).budget.held = (after limit cs).out.sum
  le_peak : ∀ past, past <+: cs → (after limit past).out.sum ≤ (after limit cs).budget.peak
  peak_eq : ∃ past, past <+: cs ∧ (after limit cs).budget.peak = (after limit past).out.sum

/-- What the calls before say about the peak, and what the last one adds to it. -/
theorem Accounts.step (h : Accounts limit cs)
    (held : (after limit (cs ++ [c])).budget.held = (after limit (cs ++ [c])).out.sum)
    (peak : (after limit (cs ++ [c])).budget.peak =
      max (after limit cs).budget.peak (after limit (cs ++ [c])).out.sum) :
    Accounts limit (cs ++ [c]) where
  held_eq := held
  le_peak past hpast := by
    rw [peak]
    obtain rfl | hpast := List.prefix_concat_iff.mp hpast
    · exact Nat.le_max_right ..
    · exact Nat.le_trans (h.le_peak past hpast) (Nat.le_max_left ..)
  peak_eq := by
    obtain ⟨past, hpast, he⟩ := h.peak_eq
    rw [peak]
    obtain hmax | hmax := Nat.le_total (after limit (cs ++ [c])).out.sum
      (after limit cs).budget.peak
    · exact ⟨past, hpast.trans (List.prefix_append ..), by rw [Nat.max_eq_left hmax, he]⟩
    · exact ⟨_, List.prefix_rfl, Nat.max_eq_right hmax⟩

theorem Accounts.snoc (h : Accounts limit cs)
    (hc : ∀ b, c = .release b → b.length ∈ (after limit cs).out) :
    Accounts limit (cs ++ [c]) := by
  have hnow := h.le_peak cs List.prefix_rfl
  have hheld := h.held_eq
  cases c with
  | allocate len =>
    obtain he | ⟨-, he⟩ := (after limit cs).budget.allocate_cases len
    · have hs : after limit (cs ++ [.allocate len]) = after limit cs := by
        rw [after_snoc, next]
        simp only [he]
      refine h.step ?_ ?_
      · rw [hs, hheld]
      · rw [hs, Nat.max_eq_left hnow]
    · have hs : after limit (cs ++ [.allocate len]) =
          { budget := { (after limit cs).budget with
              held := (after limit cs).budget.held + len
              peak := max (after limit cs).budget.peak ((after limit cs).budget.held + len) }
            out := len :: (after limit cs).out } := by
        rw [after_snoc, next]
        simp only [he, List.length_replicate]
      have hsum : (after limit cs).budget.held + len = (len :: (after limit cs).out).sum := by
        rw [hheld, List.sum_cons, Nat.add_comm]
      refine h.step ?_ ?_
      · rw [hs]
        exact hsum
      · rw [hs]
        dsimp only
        rw [hsum]
  | release b =>
    have hsum := List.sum_erase (hc b rfl)
    have hs : after limit (cs ++ [.release b]) =
        { budget := (after limit cs).budget.release b
          out := (after limit cs).out.erase b.length } := after_snoc ..
    have hpeak : ((after limit cs).budget.release b).peak = (after limit cs).budget.peak := rfl
    refine h.step ?_ ?_
    · rw [hs]
      show (after limit cs).budget.held - b.length = ((after limit cs).out.erase b.length).sum
      omega
    · rw [hs]
      dsimp only
      rw [hpeak, Nat.max_eq_left (by omega)]

theorem accounts_after (limit : UInt64) {cs : List Budget.Call}
    (hown : ReturnsOwn { budget := { limit := limit.toNat } } cs) : Accounts limit cs := by
  induction cs using List.reverseRecOn with
  | nil => exact ⟨rfl, fun past hpast => by rw [List.prefix_nil.mp hpast]; exact Nat.le_refl _,
      [], List.prefix_rfl, rfl⟩
  | append_singleton cs c ih =>
    obtain ⟨hown, hc⟩ := returnsOwn_snoc.mp hown
    exact (ih hown).snoc hc

end Lender

/-- A budget never holds more than its peak nor its peak more than its limit, whatever is returned
to it. If only buffers are returned that are out, what it holds is the sum of their lengths, and its
peak is the highest sum that there was. A request that can be addressed is granted with zeros if and
only if what is held and what is asked for are within the limit together, and otherwise changes
nothing. -/
theorem Budget.keeps_account (limit : UInt64) (cs : List Budget.Call) :
    let s := Lender.after limit cs
    (s.budget.held ≤ s.budget.peak ∧ s.budget.peak ≤ limit.toNat) ∧
    (Lender.ReturnsOwn { budget := { limit := limit.toNat } } cs →
      s.budget.held = s.out.sum ∧
      (∀ past, past <+: cs → (Lender.after limit past).out.sum ≤ s.budget.peak) ∧
      ∃ past, past <+: cs ∧ s.budget.peak = (Lender.after limit past).out.sum) ∧
    ∀ len, len ≤ Unbounded.longest → s.budget.allocate len =
      if s.budget.held + len ≤ limit.toNat then
        (some (List.replicate len 0),
          { s.budget with
            held := s.budget.held + len, peak := max s.budget.peak (s.budget.held + len) })
      else (none, s.budget) := by
  intro s
  have hs : s.Sound limit := Lender.sound_after limit cs
  refine ⟨⟨hs.held_le, hs.peak_le⟩, fun hown => ?_, fun len hlen => ?_⟩
  · have ha := Lender.accounts_after limit hown
    exact ⟨ha.held_eq, ha.le_peak, ha.peak_eq⟩
  · exact allocate_within hs.limit_eq hlen

/-- Of a budget of 64 octets two buffers are given, and a third request between them is refused. The
first one is written to and comes back. -/
theorem Budget.keeps_account_refused : ∃ (cs : List Budget.Call) (s : Lender),
    cs = [.allocate 40, .allocate 25, .allocate 24, .release (List.replicate 40 7)] ∧
    Lender.ReturnsOwn { budget := { limit := (64 : UInt64).toNat } } cs ∧
    s = Lender.after 64 cs ∧ s.out = [24] ∧ s.budget.held = s.out.sum ∧ s.budget.peak = 64 ∧
    41 ≤ Unbounded.longest ∧ s.budget.allocate 41 = (none, s.budget) := by
  obtain ⟨-, hown, hgrant⟩ := Budget.keeps_account 64
    [.allocate 40, .allocate 25, .allocate 24, .release (List.replicate 40 7)]
  have hreturns : Lender.ReturnsOwn { budget := { limit := (64 : UInt64).toNat } }
      [.allocate 40, .allocate 25, .allocate 24, .release (List.replicate 40 7)] :=
    ⟨nofun, nofun, nofun, fun b hb => by cases hb; decide, trivial⟩
  have hlong : 41 ≤ Unbounded.longest := by decide
  exact ⟨_, _, rfl, hreturns, rfl, rfl, (hown hreturns).1, rfl, hlong, hgrant 41 hlong⟩

end TcpEngine
