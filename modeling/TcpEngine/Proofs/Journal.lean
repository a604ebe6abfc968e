import TcpEngine.Proofs.Agreement

/-!
# The journal is only written

What a host does with a segment does not depend on its journal. Hosts that differ in their journals
only (`Host.Alike`) take in an event or a segment in the same way, and stay so (`Host.Alike.feed`,
`Host.Alike.receive`).
-/

namespace TcpEngine

namespace Host

variable {α ν : Type}

/-- Two hosts have the same records, index and counter, and the same arena and network layer. -/
structure Alike (h g : Host α ν) : Prop where
  table : g.table = h.table
  arena : g.link.arena = h.link.arena
  network : g.link.network = h.link.network

theorem Alike.rfl {h : Host α ν} : h.Alike h := ⟨Eq.refl _, Eq.refl _, Eq.refl _⟩

theorem Alike.symm {h g : Host α ν} (hg : h.Alike g) : g.Alike h :=
  ⟨hg.table.symm, hg.arena.symm, hg.network.symm⟩

theorem Alike.trans {h g f : Host α ν} (hg : h.Alike g) (hf : g.Alike f) : h.Alike f :=
  ⟨hf.table.trans hg.table, hf.arena.trans hg.arena, hf.network.trans hg.network⟩

theorem alike_note (h : Host α ν) (n : Note) : h.Alike (h.note n) :=
  ⟨Eq.refl _, Eq.refl _, Eq.refl _⟩

theorem Alike.note {h g : Host α ν} (hg : h.Alike g) (n n' : Note) : (h.note n).Alike (g.note n') :=
  ⟨hg.table, hg.arena, hg.network⟩

theorem Alike.get? {h g : Host α ν} (hg : h.Alike g) (k : Key) : g.get? k = h.get? k :=
  get?_of_table hg.table k

theorem Alike.link {h g : Host α ν} (hg : h.Alike g) : h.link.Match Eq Eq g.link :=
  ⟨hg.arena.symm, hg.network.symm⟩

/-- Hosts that were alike and now hold the same record, with links that match, are alike. -/
theorem Alike.hold {h g : Host α ν} (hg : h.Alike g) (k : Key) (c : Connection) {l m : Link α ν}
    (hl : l.Match Eq Eq m) : (h.hold k c l).Alike (g.hold k c m) :=
  ⟨congrArg (fun t => t.put k c) hg.table, hl.arena.symm, hl.network.symm⟩

variable [Arena α] [Network ν]

/-- Events are fed in the same way whatever the journal holds. -/
theorem Alike.feed {h g h' : Host α ν} (hg : h.Alike g) {k : Key} {r : Option Refusal}
    {es : List Event} {a : Except Error Unit} (he : h.feed k r es = .ok (a, h')) :
    ∃ g', g.feed k r es = .ok (a, g') ∧ h'.Alike g' := by
  cases hk : h.get? k with
  | none =>
    have hk' : g.get? k = none := (hg.get? k).trans hk
    cases es with
    | nil =>
      cases he
      exact ⟨g, Eq.refl _, hg⟩
    | cons e es =>
      rw [feed_stale hk] at he
      cases he
      exact ⟨g, feed_stale hk' r e es, hg⟩
  | some c =>
    obtain ⟨a', c', l, m, he', hg', hl⟩ := feed_agree Arena.bisimulation_eq Network.bisimulation_eq
      hk ((hg.get? k).trans hk) hg.link r es
    cases he.symm.trans he'
    exact ⟨_, hg', hg.hold k c' hl⟩

/-- A segment is received in the same way whatever the journal holds. -/
theorem Alike.receive {h g h' : Host α ν} (hg : h.Alike g) {segment : Octets} {src dst : Address}
    {a : Except Error Unit} (he : h.receive segment src dst = .ok (a, h')) :
    ∃ g', g.receive segment src dst = .ok (a, g') ∧ h'.Alike g' := by
  obtain ⟨r | q, hq⟩ := Header.parse_ok segment (h.table.policy.ends src dst)
  · rw [receive_rejected hq] at he
    cases he
    exact ⟨_, receive_rejected (by rwa [hg.table]), hg.note _ _⟩
  · cases hf : h.table.find? src dst q.srcPort q.dstPort with
    | none =>
      rw [receive_unmatched hq hf] at he
      cases he
      exact ⟨_, receive_unmatched (by rwa [hg.table]) (by rwa [hg.table]), hg.note _ _⟩
    | some k =>
      rw [receive_found hq hf] at he
      rw [receive_found (h := g) (by rwa [hg.table]) (by rwa [hg.table])]
      exact (hg.note _ _).feed he

end Host

end TcpEngine
