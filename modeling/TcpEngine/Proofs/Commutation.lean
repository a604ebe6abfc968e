import TcpEngine.Proofs.Agreement
import TcpEngine.Proofs.ArenaDiscipline
import TcpEngine.Proofs.Isolation
import TcpEngine.Proofs.Refusals

/-!
# Operations on different connections commute

An operation replaces one record, uses its arena in a balanced way, and hands segments over. Another
one on another record finds its own record as before. What it can tell of the first is a mark on the
arena and what the network layer has kept by now, and neither changes any answer.

* `Arena.Marks`: balanced calls leave no more than a mark on an arena. On a budget it is a higher
  peak, and on an arena without a limit there is none.
* `Outbox.Steady`: an outbox that says the same to all segments.
* `Host.call_agree`: an operation does the same on any host that has the same record for it.
* `Host.operations_commute`: two operations on different records, in both orders.
-/

namespace TcpEngine

/-! ## Arenas -/

namespace Arena

variable {α : Type} [Arena α]

/-- Balanced calls leave a mark on an arena. It makes no difference to later calls, and two marks
can be made in any order. -/
structure Marks (mark : Nat → α → α) : Prop where
  bisimulation (n : Nat) : Bisimulation fun a b => b = mark n a
  comm (m n : Nat) (a : α) : mark m (mark n a) = mark n (mark m a)
  balanced {d : Nat} {a a' : α} : Balanced d a a' → ∃ n, a' = mark n a

end Arena

namespace Unbounded

theorem marks : Arena.Marks (fun (_ : Nat) (a : Unbounded) => a) where
  bisimulation n := ⟨fun _ h => by cases h; exact ⟨rfl, rfl⟩, fun _ h => h⟩
  comm m n a := rfl
  balanced _ := ⟨0, rfl⟩

end Unbounded

namespace Budget

theorem allocate_raise (m : Nat) (a : Budget) (n : Nat) :
    (raise m a).allocate n = ((a.allocate n).1, raise m (a.allocate n).2) := by
  by_cases hn : a.Allows n
  · have hn' : (raise m a).Allows n := hn
    rw [allocate_granted hn, allocate_granted hn']
    simp only [raise, Nat.max_assoc, Nat.max_comm m]
  · have hn' : ¬ (raise m a).Allows n := hn
    rw [allocate_refused hn, allocate_refused hn']

theorem marks : Arena.Marks raise where
  bisimulation m := by
    refine ⟨fun {a b} n h => ?_, fun {a b} x h => ?_⟩
    · subst h
      show (a.allocate n).1 = ((raise m a).allocate n).1 ∧
        ((raise m a).allocate n).2 = raise m (a.allocate n).2
      rw [allocate_raise]
      exact ⟨rfl, rfl⟩
    · subst h
      rfl
  comm m n a := by simp only [raise, Nat.max_assoc, Nat.max_comm m n]
  balanced h := exists_raise h

end Budget

/-! ## Outboxes -/

namespace Outbox

/-- The outbox says the same to all segments: it accepts them, or refuses them for a reason. -/
def Steady (n : Outbox) (r : Option Refusal) : Prop := ∀ i, n.verdicts i = r

/-- The steady outbox at the address `a` has kept the datagrams `ds` so far. -/
structure Keeps (n : Outbox) (r : Option Refusal) (a : Address) (ds : List Datagram) : Prop where
  steady : n.Steady r
  address : n.address = a
  sent : n.sent = ds

variable {r : Option Refusal} {a : Address} {ds es : List Datagram}

theorem Keeps.deliver {n : Outbox} (h : n.Keeps r a ds) (dst : Address) (protocol : Protocol)
    (b : Octets) :
    (n.deliver dst protocol b).1 = r.elim (.ok ()) .error ∧
      (n.deliver dst protocol b).2.Keeps r a
        (ds ++ if r.isNone then [{ src := a, dst, protocol, payload := b }] else []) := by
  have hr : n.refusal = r := n.refusal_eq.trans (h.steady 0)
  rw [deliver_eq, hr]
  refine ⟨rfl, fun i => ?_, h.address, ?_⟩
  · rw [verdicts_after]
    exact h.steady _
  · simp only [after, hr, h.sent, h.address]

/-- Two steady outboxes had kept the datagrams `ds` and `es`, and have kept the same ones since. -/
def Parallel (r : Option Refusal) (a : Address) (ds es : List Datagram) (m n : Outbox) : Prop :=
  ∃ fs, m.Keeps r a (ds ++ fs) ∧ n.Keeps r a (es ++ fs)

theorem Keeps.parallel {m n : Outbox} (hm : m.Keeps r a ds) (hn : n.Keeps r a es) :
    Parallel r a ds es m n :=
  ⟨[], by rwa [List.append_nil], by rwa [List.append_nil]⟩

theorem parallel_bisimulation (r : Option Refusal) (a : Address) (ds es : List Datagram) :
    Network.Bisimulation (Parallel r a ds es) where
  deliver {m n} dst protocol b := by
    rintro ⟨fs, hm, hn⟩
    obtain ⟨hanswer, hm⟩ := hm.deliver dst protocol b
    obtain ⟨hanswer', hn⟩ := hn.deliver dst protocol b
    rw [List.append_assoc] at hm hn
    exact ⟨hanswer.trans hanswer'.symm, _, hm, hn⟩

end Outbox

/-! ## Operations -/

namespace Host

section

variable {α ν β γ : Type} {Ra : α → α → Prop} {Rn : ν → ν → Prop} {h g : Host α ν} {k : Key}

theorem Agree.map {x y : Checked (β × Host α ν)} (ha : Agree Ra Rn k h g x y) (f : β → γ) :
    Agree Ra Rn k h g (x >>= fun (b, h) => pure (f b, h)) (y >>= fun (b, h) => pure (f b, h)) := by
  obtain ⟨a, c, l, m, rfl, rfl, hl⟩ := ha
  exact ⟨f a, c, l, m, rfl, rfl, hl⟩

variable [Arena α] [Network ν]

/-- An operation does the same on two hosts that have the same record for it. -/
theorem call_agree (hRa : Arena.Bisimulation Ra) (hRn : Network.Bisimulation Rn) {r : Connection}
    {c : Call α ν} (hc : c.Operates) (hs : h.subject? c = some k) (hk : h.get? k = some r)
    (hk' : g.get? k = some r) (hl : h.link.Match Ra Rn g.link)
    (hindex : g.table.index = h.table.index) (hpolicy : g.table.policy = h.table.policy) :
    Agree Ra Rn k h g (h.call c) (g.call c) := by
  cases c with
  | connect k =>
    cases hs
    exact (connect_agree hRa hRn hk hk' hl).map _
  | listen k =>
    cases hs
    exact (listen_agree hk hk' hl).map _
  | send k f p =>
    cases hs
    exact (send_agree hRa hRn hk hk' hl f p).map _
  | receive segment src dst =>
    obtain ⟨q, hq, hf⟩ := subject?_receive_eq_some.mp hs
    exact (receive_agree hRa hRn hk hk' hl hindex hpolicy hq hf).map _
  | _ => exact hc.elim

/-- Two operations on different live records. -/
structure Apart (h : Host α ν) (c d : Call α ν) : Prop where
  operates : c.Operates
  operates' : d.Operates
  live : ∃ k k' r r', h.subject? c = some k ∧ h.subject? d = some k' ∧ h.get? k = some r ∧
    h.get? k' = some r' ∧ k ≠ k'

end

variable {α : Type} [Arena α]

/-- In either order the calls `c` and `d` to the host `h` have the same answers and lead to the same
records, registrations and counter, and to the same arena. The outbox keeps the datagrams of both
calls, in the order of the calls. -/
def Commute (h : Host α Outbox) (c d : Call α Outbox) : Prop :=
  ∃ a b g g' f f' ds es,
    h.call c = .ok (a, g) ∧ g.call d = .ok (b, g') ∧
    h.call d = .ok (b, f) ∧ f.call c = .ok (a, f') ∧
    g'.table = f'.table ∧ g'.link.arena = f'.link.arena ∧
    g.link.network.sent = h.link.network.sent ++ ds ∧
    g'.link.network.sent = h.link.network.sent ++ ds ++ es ∧
    f.link.network.sent = h.link.network.sent ++ es ∧
    f'.link.network.sent = h.link.network.sent ++ es ++ ds

theorem Apart.commute {mark : Nat → α → α} (hM : Arena.Marks mark) {h : Host α Outbox}
    {r : Option Refusal} (hr : h.link.network.Steady r) {c d : Call α Outbox} (ha : h.Apart c d) :
    h.Commute c d := by
  obtain ⟨hc, hd, k, k', x, x', hs, hs', hk, hk', hne⟩ := ha
  have hn : h.link.network.Keeps r h.link.network.address h.link.network.sent := ⟨hr, rfl, rfl⟩
  -- The first call.
  obtain ⟨a, y, l, _, hcall, -, hl⟩ := call_agree Arena.bisimulation_eq
    (Outbox.parallel_bisimulation ..) hc hs hk hk ⟨rfl, hn.parallel hn⟩ rfl rfl
  obtain ⟨ds, hds, -⟩ := hl.network
  obtain ⟨m, hm⟩ := hM.balanced (call_balanced hc.keepsLink hcall)
  -- The second one, at first and behind the first.
  have hbehind : (h.hold k y l).get? k' = some x' := by rw [get?_hold hk, if_neg hne.symm, hk']
  obtain ⟨b, y', l', lg, hcall', hg, hlg⟩ := call_agree (hM.bisimulation m)
    (Outbox.parallel_bisimulation ..) hd hs' hk' hbehind ⟨hm, hn.parallel hds⟩
    (by simp) (by simp)
  obtain ⟨es, hes, hg'⟩ := hlg.network
  obtain ⟨n, hn'⟩ := hM.balanced (call_balanced hd.keepsLink hcall')
  -- The first one behind the second.
  have hbehind' : (h.hold k' y' l').get? k = some x := by rw [get?_hold hk', if_neg hne, hk]
  obtain ⟨a₁, y₁, l₁, lf, hcall₁, hf, hlf⟩ := call_agree (hM.bisimulation n)
    (Outbox.parallel_bisimulation ..) hc hs hk hbehind' ⟨hn', hn.parallel hes⟩
    (by simp) (by simp)
  obtain ⟨ds₁, hds₁, hf'⟩ := hlf.network
  obtain ⟨rfl, hhold⟩ := Prod.mk.inj (Except.ok.inj (hcall.symm.trans hcall₁))
  obtain ⟨rfl, rfl⟩ := hold_inj hk hhold
  obtain rfl : ds = ds₁ := List.append_cancel_left (hds.sent.symm.trans hds₁.sent)
  refine ⟨a, b, _, _, _, _, ds, es, hcall, hg, hcall', hf, ?_, ?_, hds.sent, hg'.sent, hes.sent,
    hf'.sent⟩
  · exact ConnectionTable.put_comm hk hk' hne y y'
  · calc lg.arena = mark m l'.arena := hlg.arena
      _ = mark m (mark n h.link.arena) := congrArg (mark m) hn'
      _ = mark n (mark m h.link.arena) := hM.comm m n _
      _ = mark n l.arena := congrArg (mark n) hm.symm
      _ = lf.arena := hlf.arena.symm

/-- Operations on different connections of a host commute, if its outbox says the same to all
segments and its arena has a budget or no limit of its own: each has the same answer in both orders,
the records, the index, the counter and the arena with its peak are the same in the end, and the
datagrams kept in one order are those of the other with the two blocks exchanged. -/
theorem operations_commute (r : Option Refusal) :
    (∀ (h : Host Unbounded Outbox) (c d : Call Unbounded Outbox), h.link.network.Steady r →
      h.Apart c d → h.Commute c d) ∧
    ∀ (h : Host Budget Outbox) (c d : Call Budget Outbox), h.link.network.Steady r →
      h.Apart c d → h.Commute c d :=
  ⟨fun _ _ _ hr ha => ha.commute Unbounded.marks hr, fun _ _ _ hr ha => ha.commute Budget.marks hr⟩

/-- A SYN for one connection, which is answered, and the opening of another one. -/
theorem operations_commute_syn : ∃ c d : Call Budget Outbox,
    c = .receive (Header.segment ⟨80, 5000, {}, {}, .SYN, 0, 0⟩ [] ⟨10, 0, 0, 2⟩ ⟨10, 0, 0, 1⟩)
      ⟨10, 0, 0, 2⟩ ⟨10, 0, 0, 1⟩ ∧ d = .connect ⟨1, 2⟩ ∧
    ∃ log h, (start { address := ⟨10, 0, 0, 1⟩ } { limit := 52 }
        { address := ⟨10, 0, 0, 1⟩ }).run [.create ⟨10, 0, 0, 2⟩ 80 5000,
          .create ⟨10, 0, 0, 3⟩ 80 5001, .listen ⟨0, 1⟩] = .ok (log, h) ∧
      h.link.network.Steady none ∧ h.Apart c d ∧ h.Commute c d := by
  obtain ⟨log, h, he, hr, ha⟩ : ∃ log h, (start { address := ⟨10, 0, 0, 1⟩ }
      ({ limit := 52 } : Budget) ({ address := ⟨10, 0, 0, 1⟩ } : Outbox)).run
        [.create ⟨10, 0, 0, 2⟩ 80 5000, .create ⟨10, 0, 0, 3⟩ 80 5001, .listen ⟨0, 1⟩] =
          .ok (log, h) ∧
      h.link.network.Steady none ∧ h.Apart (.receive (Header.segment ⟨80, 5000, {}, {}, .SYN, 0, 0⟩
        [] ⟨10, 0, 0, 2⟩ ⟨10, 0, 0, 1⟩) ⟨10, 0, 0, 2⟩ ⟨10, 0, 0, 1⟩) (.connect ⟨1, 2⟩) :=
    ⟨_, _, rfl, fun _ => rfl, trivial, trivial, ⟨0, 1⟩, ⟨1, 2⟩, _, _, rfl, rfl, rfl, rfl, by decide⟩
  exact ⟨_, _, rfl, rfl, log, h, he, hr, ha, (operations_commute none).2 h _ _ hr ha⟩

end Host

end TcpEngine
