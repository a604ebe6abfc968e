import Mathlib.Algebra.Group.Int.Defs
import TcpEngine.Proofs.Registry
import TcpEngine.Proofs.SeqNumber

/-!
# Initial sequence numbers

The records that were created in a run, in order and each as it was right then
(`History.newborns`). The counter of a table moves on with each of them and at no other time, so
their initial sequence numbers are equally spaced (`History.Numbered`, `Host.run_numbered`). On the
line of sequence numbers this says when two of them are the same, and that those which are close
enough stand in the order in which they were given (`Host.initial_numbers`).
-/

namespace TcpEngine

namespace History

variable {α ν : Type}

/-- The records that were created on the way to the host `h`, each as it was right after that. -/
def newborns : History α ν → Host α ν → List Connection
  | [], _ => []
  | e :: log, h => newborns log e.before ++ (e.created?.bind fun ku => h.get? ku.1).toList

/-- From `s` on, each record that was created has the next number, and the table has the one after
these. -/
structure Numbered (s : SeqNumber) (log : History α ν) (h : Host α ν) : Prop where
  counter : h.table.nextSeq = s.add (ConnectionTable.seqStep * creates log)
  newborns : (newborns log h).map (fun c => (c.initialSeq, c.sendNext)) =
    (List.range (creates log)).map fun n =>
      (s.add (ConnectionTable.seqStep * n), s.add (ConnectionTable.seqStep * n))

theorem Numbered.length {s : SeqNumber} {log : History α ν} {h : Host α ν}
    (hn : Numbered s log h) : (History.newborns log h).length = creates log := by
  have hlen := congrArg List.length hn.newborns
  simpa using hlen

/-- The numbers of the record that was created as the `n`-th, from 0. -/
theorem Numbered.getElem? {s : SeqNumber} {log : History α ν} {h : Host α ν}
    (hn : Numbered s log h) {n : Nat} {c : Connection}
    (hc : (History.newborns log h)[n]? = some c) :
    c.initialSeq = s.add (ConnectionTable.seqStep * n) ∧
      c.sendNext = s.add (ConnectionTable.seqStep * n) := by
  have hlt : n < creates log := hn.length ▸ (List.getElem?_eq_some_iff.mp hc).1
  have hmap := congrArg (·[n]?) hn.newborns
  simp only [List.getElem?_map, hc, List.getElem?_range hlt] at hmap
  simpa using hmap

/-- Only a record that is created takes a number, and it takes one. -/
theorem Numbered.step {s : SeqNumber} {log : History α ν} {e : Entry α ν} {h : Host α ν}
    (hn : Numbered s log e.before) (he : e.Effect h.table) : Numbered s (e :: log) h := by
  have hsame (hc : e.created? = none) (hseq : h.table.nextSeq = e.before.table.nextSeq) :
      Numbered s (e :: log) h := by
    have hcreates : creates (e :: log) = creates log := by
      rw [creates_cons, hc]
      rfl
    refine ⟨by rw [hseq, hn.counter, hcreates], ?_⟩
    rw [hcreates, History.newborns, hc, ← hn.newborns]
    simp
  generalize ht : h.table = t at he
  cases he with
  | @created k u m hc _ _ hm =>
    have hcreates : creates (e :: log) = creates log + 1 := by
      rw [creates_cons, hc]
      rfl
    have hk : h.get? k = some (.new u e.before.table.nextSeq) := by
      rw [Host.get?, ht, ConnectionTable.get?_enroll hm, if_pos rfl]
    refine ⟨?_, ?_⟩
    · rw [ht, hcreates, Nat.mul_add, Nat.mul_one, ← SeqNumber.add_add, ← hn.counter]
      rfl
    · rw [hcreates, History.newborns, hc, List.range_succ, List.map_append, List.map_append,
        hn.newborns, Option.bind_some, hk, hn.counter]
      rfl
  | closed hc _ _ _ => exact hsame hc (by rw [ht]; rfl)
  | replaced hc _ _ _ => exact hsame hc (by rw [ht, ConnectionTable.nextSeq_put])
  | kept hc _ => exact hsame hc (by rw [ht])

end History

namespace Host

variable {α ν : Type} [Arena α] [Network ν]

theorem run_numbered (cfg : Config) (arena : α) (network : ν) (cs : List (Call α ν)) :
    ∃ log h, (start cfg arena network).run cs = .ok (log, h) ∧
      History.Numbered cfg.initialSeq log h := by
  have hstart : History.Numbered cfg.initialSeq [] (start cfg arena network) :=
    ⟨(SeqNumber.add_zero _).symm, rfl⟩
  have hrun : ∃ log h, (start cfg arena network).run cs = .ok (log, h) ∧
      History.Sound log h.table ∧ History.Numbered cfg.initialSeq log h := by
    refine run_induction ⟨History.sound_start cfg, hstart⟩ fun log h c _ ⟨hs, hn⟩ => ?_
    obtain ⟨a, h', he, hf⟩ := call_effect hs.wellFormed c
    exact ⟨a, h', he, hs.step hf, hn.step hf⟩
  obtain ⟨log, h, he, -, hn⟩ := hrun
  exact ⟨log, h, he, hn⟩

/-- In any run, whatever else is called for and whatever fails, the record that is created as the
`n`-th starts 64000 times `n` behind the initial sequence number of the configuration. So two
records start with the same number if and only if their places in the order of creation differ by a
multiple of 2^23, and the earlier one of two that are at most 33554 places apart has the lesser
number. -/
theorem initial_numbers (cfg : Config) (arena : α) (network : ν) (cs : List (Call α ν)) :
    ∃ log h, (start cfg arena network).run cs = .ok (log, h) ∧
      (History.newborns log h).length = History.creates log ∧
      (∀ n c, (History.newborns log h)[n]? = some c →
        c.initialSeq = cfg.initialSeq.add (64000 * n) ∧
          c.sendNext = cfg.initialSeq.add (64000 * n)) ∧
      ∀ (i j : Nat) c c', (History.newborns log h)[i]? = some c →
        (History.newborns log h)[j]? = some c' →
        (c.initialSeq = c'.initialSeq ↔ (2 ^ 23 : Int) ∣ (j : Int) - i) ∧
          (i < j → j - i ≤ 33554 → c.initialSeq.lt c'.initialSeq = true) := by
  obtain ⟨log, h, he, hn⟩ := run_numbered cfg arena network cs
  refine ⟨log, h, he, hn.length, fun n c hc => hn.getElem? hc, fun i j c c' hc hc' => ?_⟩
  rw [(hn.getElem? hc).1, (hn.getElem? hc').1]
  constructor
  · rw [SeqNumber.add_eq_add_iff]
    simp only [UInt32.size, ConnectionTable.seqStep]
    omega
  · intro hij hclose
    have hnear : (((ConnectionTable.seqStep * i : Nat) : Int) -
        (ConnectionTable.seqStep * j : Nat)).natAbs < UInt32.size / 2 := by
      simp only [UInt32.size, ConnectionTable.seqStep]
      omega
    have hlt : Ord.compare (ConnectionTable.seqStep * i) (ConnectionTable.seqStep * j) = .lt :=
      Nat.compare_eq_lt.mpr (Nat.mul_lt_mul_of_pos_left hij (by decide))
    rw [SeqNumber.lt, SeqNumber.compare_add_add _ hnear, hlt]
    rfl

end Host

end TcpEngine
