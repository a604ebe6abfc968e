import TcpEngine.Network.Outbox
import TcpEngine.Proofs.Fields
import TcpEngine.Proofs.Journal
import TcpEngine.Proofs.Recorder
import TcpEngine.Proofs.Registry
import TcpEngine.Proofs.Reliability

/-!
# One flag after the other

A segment with several of the flags SYN, ACK and FIN is received like segments with one of them
each, in this order, as long as the arena does not fail. A record meets the same events, and that
the segments are looked up and noted one by one shows in the journal only.

* `Header.signals`: the flags that make events. `Header.IsPart`: a segment with one of them.
* `Host.Alike.receive_part`: such a segment is received as its event is fed.
* `Host.run_parts`: receiving segments with one flag each is feeding their events.
* `Host.flags_in_sequence`: both ways to receive flags, after any run.
-/

namespace TcpEngine

/-! ## Segments with one flag -/

namespace Header

/-- The flags of a segment that make events, in the order in which they do. -/
def signals (q : Header) : List Flags := [.SYN, .ACK, .FIN].filter q.flags.has

/-- The segment is accepted with the ports and the sequence number of `q`, and of SYN, ACK and FIN
it has those of `f`. -/
def IsPart (q : Header) (ends : Option (Address × Address)) (f : Flags) (segment : Octets) :
    Prop :=
  ∃ q', parse segment ends = .ok (.ok q') ∧ q'.srcPort = q.srcPort ∧ q'.dstPort = q.dstPort ∧
    q'.seqNumber = q.seqNumber ∧ q'.flags.syn = f.syn ∧ q'.flags.ack = f.ack ∧
    q'.flags.fin = f.fin

/-- The events of a segment are those of its flags, one after the other. -/
theorem events_eq_flatMap (q : Header) : (Event.ofHeader q).filterMap id =
    q.signals.flatMap fun f => (Event.ofHeader { q with flags := f }).filterMap id := by
  have hsyn : Flags.SYN.syn = true ∧ Flags.SYN.ack = false ∧ Flags.SYN.fin = false := by decide
  have hack : Flags.ACK.syn = false ∧ Flags.ACK.ack = true ∧ Flags.ACK.fin = false := by decide
  have hfin : Flags.FIN.syn = false ∧ Flags.FIN.ack = false ∧ Flags.FIN.fin = true := by decide
  rw [Event.ofHeader, show q.flags.syn = q.flags.has .SYN from rfl,
    show q.flags.ack = q.flags.has .ACK from rfl, show q.flags.fin = q.flags.has .FIN from rfl]
  unfold signals
  cases hs : q.flags.has .SYN <;> cases ha : q.flags.has .ACK <;> cases hf : q.flags.has .FIN <;>
    simp [Event.ofHeader, hs, ha, hf, hsyn, hack, hfin]

end Header

/-! ## Errors of a run -/

/-- The error that a call is answered with. -/
def Answer.error? : Answer → Option Error
  | .key (.error e) => some e
  | .done (.error e) => some e
  | _ => none

theorem Answer.error?_answerOf (r : Option Refusal) :
    (Answer.done (Host.answerOf r)).error? = r.map .undelivered := by
  cases r <;> rfl

/-- The first error of a run. -/
def History.firstError {α ν : Type} (log : History α ν) : Option Error :=
  log.reverse.findSome? fun e => e.answer.error?

theorem History.firstError_append {α ν : Type} (log : History α ν) (e : Entry α ν) :
    History.firstError (log ++ [e]) = (e.answer.error? <|> History.firstError log) := by
  unfold firstError
  rw [List.reverse_append, List.reverse_singleton, List.singleton_append, List.findSome?_cons]
  cases e.answer.error? <;> rfl

namespace Host

variable {α ν : Type}

variable [Arena α] [Network ν]

/-! ## Receiving -/

section

variable {h : Host α ν} {segment : Octets} {src dst : Address} {q : Header}

theorem call_receive {a : Except Error Unit} {h' : Host α ν}
    (he : h.receive segment src dst = .ok (a, h')) :
    h.call (.receive segment src dst) = .ok (.done a, h') := by
  simp [call, he]

end

variable {src dst : Address} {q : Header} {ends : Option (Address × Address)} {fs : List Flags}
  {parts : List Octets}

/-- A segment with one flag is received as the event of the flag is fed to a host that is alike. -/
theorem Alike.receive_part {h g h' : Host α ν} (hg : h.Alike g) {f : Flags} {part : Octets}
    (hpart : q.IsPart ends f part) (hends : h.table.policy.ends src dst = ends) {k : Key}
    (hf : h.table.find? src dst q.srcPort q.dstPort = some k) {a : Except Error Unit}
    (he : h.feed k none ((Event.ofHeader { q with flags := f }).filterMap id) = .ok (a, h')) :
    ∃ g', g.receive part src dst = .ok (a, g') ∧ h'.Alike g' := by
  obtain ⟨q', hq', hsrc, hdst, hseq, hsyn, hack, hfin⟩ := hpart
  have hevents : Event.ofHeader q' = Event.ofHeader { q with flags := f } := by
    unfold Event.ofHeader
    rw [hseq, hsyn, hack, hfin]
  rw [← hends, ← hg.table] at hq'
  rw [← hg.table, ← hsrc, ← hdst] at hf
  rw [receive_found hq' hf, hevents]
  exact (hg.trans (g.alike_note _)).feed he

/-- Receiving segments with one flag each is, up to the journal, feeding the events of the flags. -/
theorem run_parts {P : α → Prop} (hS : Arena.Serves P Segment.headerLen)
    (hparts : List.Forall₂ (q.IsPart ends) fs parts) {h g : Host α ν} (hg : h.Alike g) {k : Key}
    {c : Connection} (hk : h.get? k = some c) (ha : P h.link.arena)
    (hends : h.table.policy.ends src dst = ends)
    (hf : h.table.find? src dst q.srcPort q.dstPort = some k) :
    ∃ r c' l' log g',
      (∀ refusal, h.feed k refusal
          (fs.flatMap fun f => (Event.ofHeader { q with flags := f }).filterMap id) =
        .ok (answerOf (refusal <|> r), h.hold k c' l')) ∧
      g.run (parts.map fun part => .receive part src dst) = .ok (log, g') ∧
      (h.hold k c' l').Alike g' ∧ History.firstError log = r.map .undelivered := by
  induction hparts generalizing h g c with
  | nil =>
    refine ⟨none, c, h.link, [], g, fun refusal => ?_, rfl, ?_, rfl⟩
    · rw [hold_self hk]
      cases refusal <;> rfl
    · rwa [hold_self hk]
  | @cons f part fs parts hpart _ ih =>
    obtain ⟨r₁, c₁, l₁, ha₁, hfed⟩ :=
      feed_served hS hk ha ((Event.ofHeader { q with flags := f }).filterMap id)
    have hfirst := hfed none []
    rw [List.append_nil] at hfirst
    obtain ⟨g₁, hreceive, halike⟩ := hg.receive_part hpart hends hf hfirst
    -- The other segments find the same record.
    have hk₁ := get?_hold_self hk c₁ l₁
    have hends₁ : (h.hold k c₁ l₁).table.policy.ends src dst = ends := by
      rw [table_hold, ConnectionTable.policy_put, hends]
    have hf₁ : (h.hold k c₁ l₁).table.find? src dst q.srcPort q.dstPort = some k := by
      rw [table_hold, ConnectionTable.find?_put, hf]
    obtain ⟨r, c', l', log, g', hfeed, hrun, halike', herror⟩ := ih halike hk₁ ha₁ hends₁ hf₁
    rw [hold_hold hk] at hfeed halike'
    refine ⟨r₁ <|> r, c', l', _, g', fun refusal => ?_, run_cons (call_receive hreceive) hrun,
      halike', ?_⟩
    · rw [List.flatMap_cons, hfed, hfeed]
      cases refusal <;> rfl
    · rw [History.firstError_append, herror]
      cases r₁ <;> rfl

/-- Segments for which there is no record leave nothing but notes. -/
theorem run_unmatched (hparts : List.Forall₂ (q.IsPart ends) fs parts) {h g : Host α ν}
    (hg : h.Alike g) (hends : h.table.policy.ends src dst = ends)
    (hf : h.table.find? src dst q.srcPort q.dstPort = none) :
    ∃ log g', g.run (parts.map fun part => .receive part src dst) = .ok (log, g') ∧ h.Alike g' ∧
      History.firstError log = none := by
  induction hparts generalizing g with
  | nil => exact ⟨[], g, rfl, hg, rfl⟩
  | @cons f part fs parts hpart _ ih =>
    obtain ⟨q', hq', hsrc, hdst, -⟩ := hpart
    have hreceive : g.receive part src dst = .ok (.ok (), g.note (.unmatched src dst q')) :=
      receive_unmatched (by rwa [hg.table, hends]) (by rw [hg.table, hsrc, hdst, hf])
    obtain ⟨log, g', hrun, halike, herror⟩ := ih (hg.trans (alike_note g _))
    refine ⟨_, g', run_cons (call_receive hreceive) hrun, halike, ?_⟩
    rw [History.firstError_append, herror]
    rfl

/-- After a run that leaves addresses and ports alone, and with an arena that does not fail, an
accepted segment leaves the same table and the same arena, and hands over the same, as segments that
have its ports and sequence number and one of its flags SYN, ACK and FIN each, received one after
the other. Its answer is the first error among theirs. For every flag there is such a segment: the
segment itself with that flag alone and a fresh checksum. Without these flags nothing happens. -/
theorem flags_in_sequence {P : α → Prop} (hP : Arena.Reliable P)
    {cs : List (Call α (Recorder ν))} (keep : ∀ c ∈ cs, c.KeepsTuple) (cfg : Config) (arena : α)
    (network : Recorder ν) :
    ∃ log h, (start cfg arena network).run cs = .ok (log, h) ∧ (P h.link.arena →
      ∀ segment src dst q, Header.parse segment (h.table.policy.ends src dst) = .ok (.ok q) →
        ∃ a h', h.receive segment src dst = .ok (a, h') ∧
          (∀ f, ∃ part, Segment.reflag segment f src dst = .ok part ∧
            q.IsPart (h.table.policy.ends src dst) f part) ∧
          (∀ parts, List.Forall₂ (q.IsPart (h.table.policy.ends src dst)) q.signals parts →
            ∃ log' h'', h.run (parts.map fun part => .receive part src dst) = .ok (log', h'') ∧
              h'.Alike h'' ∧ (Answer.done a).error? = History.firstError log') ∧
          (q.signals = [] → a = .ok () ∧ h.Alike h')) := by
  obtain ⟨log, h, hr, hreg⟩ := run_regular keep cfg arena network
  refine ⟨log, h, hr, fun ha segment src dst q hq => ?_⟩
  obtain ⟨a, h', he⟩ := h.receive_ok segment src dst
  have hparts : ∀ parts, List.Forall₂ (q.IsPart (h.table.policy.ends src dst)) q.signals parts →
      ∃ log' h'', h.run (parts.map fun part => .receive part src dst) = .ok (log', h'') ∧
        h'.Alike h'' ∧ (Answer.done a).error? = History.firstError log' := by
    intro parts hparts
    cases hf : h.table.find? src dst q.srcPort q.dstPort with
    | none =>
      cases he.symm.trans (receive_unmatched hq hf)
      obtain ⟨log', h'', hrun, halike, herror⟩ := run_unmatched hparts .rfl rfl hf
      exact ⟨log', h'', hrun, (h.alike_note _).symm.trans halike, herror.symm⟩
    | some k =>
      obtain ⟨c, hk, -⟩ := (hreg.find?_iff _ k).mp hf
      have hS := hP.serves (n := Segment.headerLen) (by decide)
      obtain ⟨r, c', l', log', h'', hfeed, hrun, halike, herror⟩ :=
        run_parts hS hparts (h.alike_note (.received src dst q)).symm hk ha rfl hf
      rw [receive_found hq hf, q.events_eq_flatMap, hfeed none] at he
      cases he
      exact ⟨log', h'', hrun, halike, (Answer.error?_answerOf _).trans herror.symm⟩
  refine ⟨a, h', he, fun f => ?_, hparts, fun hnone => ?_⟩
  · obtain ⟨part, hpart, hq'⟩ := Header.parse_reflag hq f h.table.policy src dst
    exact ⟨part, hpart, _, hq', rfl, rfl, rfl, rfl, rfl, rfl⟩
  · obtain ⟨log', h'', hrun, halike, herror⟩ := hparts [] (by rw [hnone]; exact .nil)
    cases hrun
    refine ⟨?_, halike.symm⟩
    cases a with
    | ok _ => rfl
    | error e => cases herror

/-- A record that waits is sent all three flags at once, and the network layer refuses the second of
the replies. -/
theorem flags_in_sequence_all : ∃ (cs : List (Call Unbounded (Recorder Outbox)))
    (segment : Flags → Octets), cs = [.create ⟨10, 0, 0, 2⟩ 80 5000, .listen ⟨0, 1⟩] ∧
    segment = (fun f => Header.segment ⟨80, 5000, ⟨7⟩, {}, f, 0, 0⟩ [] ⟨10, 0, 0, 2⟩
      ⟨10, 0, 0, 1⟩) ∧
    (Arena.Reliable fun _ : Unbounded => True) ∧ (∀ c ∈ cs, c.KeepsTuple) ∧
    ∃ log h h' log' h'', (start { address := ⟨10, 0, 0, 1⟩ } {} { layer :=
        { address := ⟨10, 0, 0, 1⟩, script := [none, some .device] } }).run cs = .ok (log, h) ∧
      h.receive (segment (.SYN ||| .ACK ||| .FIN)) ⟨10, 0, 0, 2⟩ ⟨10, 0, 0, 1⟩ =
        .ok (.error (.undelivered .device), h') ∧
      h.run [.receive (segment .SYN) ⟨10, 0, 0, 2⟩ ⟨10, 0, 0, 1⟩,
        .receive (segment .ACK) ⟨10, 0, 0, 2⟩ ⟨10, 0, 0, 1⟩,
        .receive (segment .FIN) ⟨10, 0, 0, 2⟩ ⟨10, 0, 0, 1⟩] = .ok (log', h'') ∧
      h'.Alike h'' ∧ History.firstError log' = some (.undelivered .device) ∧
      h'.link.network.handed.length = 3 := by
  have keep : ∀ c ∈ ([.create ⟨10, 0, 0, 2⟩ 80 5000, .listen ⟨0, 1⟩] :
      List (Call Unbounded (Recorder Outbox))), c.KeepsTuple := by
    simp [Call.KeepsTuple]
  obtain ⟨segment, hsegment⟩ : ∃ segment, segment = fun f =>
    Header.segment ⟨80, 5000, ⟨7⟩, {}, f, 0, 0⟩ [] ⟨10, 0, 0, 2⟩ ⟨10, 0, 0, 1⟩ := ⟨_, rfl⟩
  have hq (f : Flags) : Header.parse (segment f)
      (ChecksumPolicy.verify.ends ⟨10, 0, 0, 2⟩ ⟨10, 0, 0, 1⟩) =
        .ok (.ok ⟨80, 5000, ⟨7⟩, {}, f, 0, 0⟩) := by
    rw [hsegment]
    exact Header.parse_segment_ends _ (by decide) .verify _ _
  have hpart (f : Flags) := (⟨_, hq f, rfl, rfl, rfl, rfl, rfl, rfl⟩ :
    Header.IsPart ⟨80, 5000, ⟨7⟩, {}, .SYN ||| .ACK ||| .FIN, 0, 0⟩ _ f (segment f))
  obtain ⟨log, h, hr, hflags⟩ := flags_in_sequence Unbounded.reliable keep
    { address := ⟨10, 0, 0, 1⟩ } {} { layer :=
      { address := ⟨10, 0, 0, 1⟩, script := [none, some .device] } }
  cases hr
  obtain ⟨a, h', he, -, hparts, -⟩ := hflags trivial _ _ _ _ (hq (.SYN ||| .ACK ||| .FIN))
  obtain ⟨log', h'', hrun, halike, herror⟩ :=
    hparts _ (.cons (hpart .SYN) (.cons (hpart .ACK) (.cons (hpart .FIN) .nil)))
  refine ⟨_, segment, rfl, hsegment, Unbounded.reliable, keep, _, _, h', log', h'', rfl, ?_⟩
  subst hsegment
  cases he
  exact ⟨rfl, hrun, halike, herror.symm, rfl⟩

end Host

end TcpEngine
