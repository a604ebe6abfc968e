import TcpEngine.Network.Outbox
import TcpEngine.Proofs.Agreement
import TcpEngine.Proofs.ArenaDiscipline
import TcpEngine.Proofs.Recorder

/-!
# What of a segment matters

A host heeds the ports of an accepted segment, its sequence number and its flags SYN, ACK and FIN.
Everything else in it could be otherwise, and the host could have accepted it unseen: two segments
that look alike (`Header.LooksLike`), received by hosts that are equal but for their checksum
policies (`Host.Peers`), get the same answer and leave such hosts. What arena and network layer see
of it is the same, too (`Host.Did`).

* `Ledger.since_bisimulation`, `Recorder.since_bisimulation`: arenas with the same calls since some
  moment, and network layers with the same datagrams, go on in the same way.
* `Host.receive_noninterference`: the two runs.
-/

namespace TcpEngine

/-! ## Segments that look alike -/

/-- The headers have the same ports, the same sequence number, and the same of the flags SYN, ACK
and FIN. -/
structure Header.LooksLike (q q' : Header) : Prop where
  srcPort : q'.srcPort = q.srcPort
  dstPort : q'.dstPort = q.dstPort
  seqNumber : q'.seqNumber = q.seqNumber
  syn : q'.flags.syn = q.flags.syn
  ack : q'.flags.ack = q.flags.ack
  fin : q'.flags.fin = q.flags.fin

theorem Header.LooksLike.events {q q' : Header} (h : q.LooksLike q') :
    Event.ofHeader q' = Event.ofHeader q := by
  unfold Event.ofHeader
  rw [h.seqNumber, h.syn, h.ack, h.fin]

/-! ## What was done since -/

/-- The same calls were made to both ledgers, after `before` to one and `before'` to the other, and
the arenas in them are the same. -/
def Ledger.Since {α : Type} (before before' : List ArenaCall) (a b : Ledger α) : Prop :=
  b.arena = a.arena ∧ ∃ calls, a.calls = before ++ calls ∧ b.calls = before' ++ calls

theorem Ledger.since_bisimulation {α : Type} [Arena α] (before before' : List ArenaCall) :
    Arena.Bisimulation (Since (α := α) before before') where
  allocate {a b} n h := by
    obtain ⟨harena, calls, ha, hb⟩ := h
    have hanswer : Arena.allocate b.arena n = Arena.allocate a.arena n := by rw [harena]
    refine ⟨(congrArg Prod.fst hanswer).symm, congrArg Prod.snd hanswer,
      calls ++ [.allocate n ((Arena.allocate a.arena n).1.map List.length)], ?_, ?_⟩
    · rw [calls_allocate (Prod.eta _).symm, ha, List.append_assoc]
      rfl
    · rw [calls_allocate (Prod.eta _).symm, hb, List.append_assoc, ← hanswer]
      rfl
  release {a b} x h := by
    obtain ⟨harena, calls, ha, hb⟩ := h
    refine ⟨congrArg (Arena.release · x) harena, calls ++ [.release x.length], ?_, ?_⟩
    · show a.calls ++ _ = _
      rw [ha, List.append_assoc]
    · show b.calls ++ _ = _
      rw [hb, List.append_assoc]

/-- The same datagrams were handed to both recorders, after `before` to one and `before'` to the
other, and the layers under them are the same. -/
def Recorder.Since {ν : Type} (before before' : List Datagram) (m n : Recorder ν) : Prop :=
  n.layer = m.layer ∧ ∃ ds, m.handed = before ++ ds ∧ n.handed = before' ++ ds

theorem Recorder.since_bisimulation {ν : Type} [Network ν] (before before' : List Datagram) :
    Network.Bisimulation (Since (ν := ν) before before') where
  deliver {m n} dst protocol b h := by
    obtain ⟨hlayer, ds, hm, hn⟩ := h
    have hanswer : Network.deliver n.layer dst protocol b =
        Network.deliver m.layer dst protocol b := by rw [hlayer]
    let d : Datagram := { src := Network.address m.layer, dst, protocol, payload := b }
    refine ⟨(congrArg Prod.fst hanswer).symm, congrArg Prod.snd hanswer, ds ++ [d], ?_, ?_⟩
    · show m.handed ++ [d] = _
      rw [hm, List.append_assoc]
    · show n.handed ++ [{ d with src := Network.address n.layer }] = _
      rw [hn, hlayer, List.append_assoc]

/-! ## Hosts -/

namespace Host

variable {α ν : Type}

/-- The hosts have the same records, index and counter, and the same arena and network layer. Their
checksum policies can differ, and what was done before. -/
structure Peers (h g : Host (Ledger α) (Recorder ν)) : Prop where
  records : g.table.records = h.table.records
  index : g.table.index = h.table.index
  nextSeq : g.table.nextSeq = h.table.nextSeq
  arena : g.link.arena.arena = h.link.arena.arena
  layer : g.link.network.layer = h.link.network.layer

/-- From `h` to `h'` the host made these calls to its arena and handed over these datagrams, and its
settings are what they were. -/
structure Did (calls : List ArenaCall) (ds : List Datagram) (h h' : Host (Ledger α) (Recorder ν)) :
    Prop where
  arena : h'.link.arena.calls = h.link.arena.calls ++ calls
  network : h'.link.network.handed = h.link.network.handed ++ ds
  settings : h'.table.settings = h.table.settings

variable {h g : Host (Ledger α) (Recorder ν)}

theorem Peers.get? (hg : h.Peers g) (k : Key) : g.get? k = h.get? k :=
  congrArg (fun m => m.get? k) hg.records

theorem Peers.note (hg : h.Peers g) (n n' : Note) : (h.note n).Peers (g.note n') :=
  ⟨hg.records, hg.index, hg.nextSeq, hg.arena, hg.layer⟩

theorem Did.refl (h : Host (Ledger α) (Recorder ν)) : Did [] [] h h :=
  ⟨(List.append_nil _).symm, (List.append_nil _).symm, rfl⟩

/-- A note is nothing that arena and network layer see. -/
theorem Did.of_note {calls : List ArenaCall} {ds : List Datagram} {n : Note}
    {h' : Host (Ledger α) (Recorder ν)} (hdid : Did calls ds (h.note n) h') : Did calls ds h h' :=
  ⟨hdid.arena, hdid.network, hdid.settings⟩

/-- From now on, peers have done nothing. -/
theorem Peers.since (hg : h.Peers g) :
    h.link.Match (Ledger.Since h.link.arena.calls g.link.arena.calls)
      (Recorder.Since h.link.network.handed g.link.network.handed) g.link :=
  ⟨⟨hg.arena, [], (List.append_nil _).symm, (List.append_nil _).symm⟩,
    ⟨hg.layer, [], (List.append_nil _).symm, (List.append_nil _).symm⟩⟩

/-- Peers that have done the same, and have the same record afterwards, are peers still. -/
theorem Peers.hold (hg : h.Peers g) {k : Key} {c₀ : Connection} (hk : h.get? k = some c₀)
    (c : Connection) {l m : Link (Ledger α) (Recorder ν)}
    (hl : l.Match (Ledger.Since h.link.arena.calls g.link.arena.calls)
      (Recorder.Since h.link.network.handed g.link.network.handed) m) :
    (h.hold k c l).Peers (g.hold k c m) ∧
      ∃ calls ds, Did calls ds h (h.hold k c l) ∧ Did calls ds g (g.hold k c m) := by
  obtain ⟨⟨harena, calls, hcalls, hcalls'⟩, hlayer, ds, hds, hds'⟩ := hl
  have hk' : g.table.get? k = some c₀ := (hg.get? k).trans hk
  have hrecords : (g.table.put k c).records = (h.table.put k c).records := by
    rw [ConnectionTable.put_eq hk', ConnectionTable.put_eq hk, hg.records]
  refine ⟨⟨hrecords, ?_, ?_, harena, hlayer⟩, calls, ds,
    ⟨hcalls, hds, ConnectionTable.settings_put ..⟩,
    ⟨hcalls', hds', ConnectionTable.settings_put ..⟩⟩
  · rw [table_hold, table_hold, ConnectionTable.index_put, ConnectionTable.index_put, hg.index]
  · rw [table_hold, table_hold, ConnectionTable.nextSeq_put, ConnectionTable.nextSeq_put,
      hg.nextSeq]

variable [Arena α] [Network ν]

/-- Peers take in events in the same way. -/
theorem Peers.feed (hg : h.Peers g) (k : Key) (refusal : Option Refusal) (es : List Event) :
    ∃ a h' g' calls ds, h.feed k refusal es = .ok (a, h') ∧ g.feed k refusal es = .ok (a, g') ∧
      h'.Peers g' ∧ Did calls ds h h' ∧ Did calls ds g g' := by
  cases hk : h.get? k with
  | none =>
    have hk' : g.get? k = none := (hg.get? k).trans hk
    cases es with
    | nil => exact ⟨_, h, g, [], [], rfl, rfl, hg, .refl h, .refl g⟩
    | cons e es =>
      exact ⟨_, h, g, [], [], feed_stale hk refusal e es, feed_stale hk' refusal e es, hg,
        .refl h, .refl g⟩
  | some c =>
    obtain ⟨a, c', l, m, he, he', hl⟩ := feed_agree (Ledger.since_bisimulation _ _)
      (Recorder.since_bisimulation _ _) hk ((hg.get? k).trans hk) hg.since refusal es
    obtain ⟨hpeers, calls, ds, hdid, hdid'⟩ := hg.hold hk c' hl
    exact ⟨a, _, _, calls, ds, he, he', hpeers, hdid, hdid'⟩

/-- Two accepted segments with the same ports, sequence number and flags SYN, ACK and FIN, whatever
else is in them, are received in the same way by hosts that are equal but for their settings, of
which the checksum policy is one: both give the same answer, make the same calls to their arenas,
hand over the same datagrams, and are equal again. -/
theorem receive_noninterference (hg : h.Peers g) {segment segment' : Octets} {src dst : Address}
    {q q' : Header} (hq : Header.parse segment (h.table.policy.ends src dst) = .ok (.ok q))
    (hq' : Header.parse segment' (g.table.policy.ends src dst) = .ok (.ok q'))
    (hlooks : q.LooksLike q') :
    ∃ a h' g' calls ds, h.receive segment src dst = .ok (a, h') ∧
      g.receive segment' src dst = .ok (a, g') ∧ h'.Peers g' ∧ Did calls ds h h' ∧
      Did calls ds g g' := by
  have hfind : g.table.find? src dst q'.srcPort q'.dstPort =
      h.table.find? src dst q.srcPort q.dstPort := by
    unfold ConnectionTable.find?
    rw [hg.index, hlooks.srcPort, hlooks.dstPort]
  cases hf : h.table.find? src dst q.srcPort q.dstPort with
  | none =>
    exact ⟨_, _, _, [], [], receive_unmatched hq hf, receive_unmatched hq' (hfind.trans hf),
      hg.note _ _, (Did.refl _).of_note, (Did.refl _).of_note⟩
  | some k =>
    rw [receive_found hq hf, receive_found hq' (hfind.trans hf), hlooks.events]
    obtain ⟨a, h', g', calls, ds, he, he', hpeers, hdid, hdid'⟩ :=
      (hg.note (.received src dst q) (.received src dst q')).feed k none
        ((Event.ofHeader q).filterMap id)
    exact ⟨a, h', g', calls, ds, he, he', hpeers, hdid.of_note, hdid'.of_note⟩

/-- A record that waits is sent a SYN: once as a bare segment with its checksum to a host that
verifies it, and once with a payload, with other flags and fields and with no checksum to a host
that does not. -/
theorem receive_noninterference_payload :
    ∃ (h g : Host (Ledger Unbounded) (Recorder Outbox)) (segment segment' : Octets)
      (q q' : Header), h.table.policy = .verify ∧ g.table.policy = .ignore ∧ h.Peers g ∧
      Header.parse segment (h.table.policy.ends ⟨10, 0, 0, 2⟩ ⟨10, 0, 0, 1⟩) = .ok (.ok q) ∧
      Header.parse segment' (g.table.policy.ends ⟨10, 0, 0, 2⟩ ⟨10, 0, 0, 1⟩) = .ok (.ok q') ∧
      q.LooksLike q' ∧ q.ackNumber ≠ q'.ackNumber ∧ q.flags ≠ q'.flags ∧ q.window ≠ q'.window ∧
      q.payloadLen ≠ q'.payloadLen ∧ ∃ a h' g' calls ds,
        h.receive segment ⟨10, 0, 0, 2⟩ ⟨10, 0, 0, 1⟩ = .ok (a, h') ∧
        g.receive segment' ⟨10, 0, 0, 2⟩ ⟨10, 0, 0, 1⟩ = .ok (a, g') ∧ h'.Peers g' ∧
        Did calls ds h h' ∧ Did calls ds g g' ∧ h'.link.arena.calls.length = 4 ∧
        h'.link.network.handed.length = 1 := by
  have hrun (policy : ChecksumPolicy) : ∃ log h,
      (start { address := ⟨10, 0, 0, 1⟩, policy } ({ arena := {} } : Ledger Unbounded)
        ({ layer := { address := ⟨10, 0, 0, 1⟩ } } : Recorder Outbox)).run
        [.create ⟨10, 0, 0, 2⟩ 80 5000, .listen ⟨0, 1⟩] = .ok (log, h) := ⟨_, _, rfl⟩
  obtain ⟨_, h, hr⟩ := hrun .verify
  obtain ⟨_, g, hr'⟩ := hrun .ignore
  have hpolicy : h.table.policy = .verify := by cases hr; rfl
  have hpolicy' : g.table.policy = .ignore := by cases hr'; rfl
  have hpeers : h.Peers g := by
    cases hr
    cases hr'
    exact ⟨rfl, rfl, rfl, rfl, rfl⟩
  have hq : Header.parse [0, 80, 19, 136, 0, 0, 0, 7, 0, 0, 0, 0, 2, 0, 0, 0, 214, 3, 0, 0]
      (h.table.policy.ends ⟨10, 0, 0, 2⟩ ⟨10, 0, 0, 1⟩) =
        .ok (.ok ⟨80, 5000, ⟨7⟩, ⟨0⟩, .SYN, 0, 0⟩) := by
    rw [hpolicy]
    rfl
  have hq' : Header.parse
      [0, 80, 19, 136, 0, 0, 0, 7, 0, 0, 0, 9, 10, 95, 0, 1, 0, 0, 1, 1, 104, 105]
      (g.table.policy.ends ⟨10, 0, 0, 2⟩ ⟨10, 0, 0, 1⟩) =
        .ok (.ok ⟨80, 5000, ⟨7⟩, ⟨9⟩, .SYN ||| .PSH, 1, 2⟩) := by
    rw [hpolicy']
    rfl
  have hlooks : Header.LooksLike ⟨80, 5000, ⟨7⟩, ⟨0⟩, .SYN, 0, 0⟩
      ⟨80, 5000, ⟨7⟩, ⟨9⟩, .SYN ||| .PSH, 1, 2⟩ := ⟨rfl, rfl, rfl, rfl, rfl, rfl⟩
  obtain ⟨a, h', g', calls, ds, he, he', hpeers', hdid, hdid'⟩ :=
    receive_noninterference hpeers hq hq' hlooks
  refine ⟨h, g, _, _, _, _, hpolicy, hpolicy', hpeers, hq, hq', hlooks, by decide, by decide,
    by decide, by decide, a, h', g', calls, ds, he, he', hpeers', hdid, hdid', ?_⟩
  cases hr
  cases he
  exact ⟨rfl, rfl⟩

end Host

end TcpEngine
