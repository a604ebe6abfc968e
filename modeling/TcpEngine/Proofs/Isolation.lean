import TcpEngine.Proofs.SequenceSpace

/-!
# Isolation of connections

Connecting, listening, sending, closing and receiving are about one record, if any: the one with the
key that the user names, or the one that a segment is found to belong to (`Host.subject?`). All
other records stay as they are, and what is handed over is the subject's.

* `Host.Confined`: a call has not reached beyond its subject.
* `Host.call_confined`: no call does, as long as the keys are registered under the four-tuples of
  their records.
* `Host.calls_isolated`: after any run that leaves addresses and ports alone.
-/

namespace TcpEngine

/-- A call that does what a connection is for: opening it, sending on it or receiving for it. -/
def Call.Operates {α ν : Type} : Call α ν → Prop
  | .connect _ | .listen _ | .send .. | .receive .. => True
  | _ => False

theorem Call.Operates.keepsLink {α ν : Type} {c : Call α ν} (h : c.Operates) : c.KeepsLink := by
  cases c with
  | attach _ _ => exact h.elim
  | _ => trivial

namespace Host

variable {α ν : Type}

/-- The key of the record that a call is about. For a segment it is the one registered under its
four-tuple, unless the segment is rejected. -/
def subject? (h : Host α ν) : Call α ν → Option Key
  | .close k | .connect k | .listen k | .send k _ _ => some k
  | .receive segment src dst =>
    match Header.parse segment (h.table.policy.ends src dst) with
    | .ok (.ok q) => h.table.find? src dst q.srcPort q.dstPort
    | _ => none
  | _ => none

theorem subject?_receive {h : Host α ν} {segment : Octets} {src dst : Address} {q : Header}
    (hq : Header.parse segment (h.table.policy.ends src dst) = .ok (.ok q)) :
    h.subject? (.receive segment src dst) = h.table.find? src dst q.srcPort q.dstPort := by
  unfold subject?
  dsimp only
  rw [hq]

theorem subject?_receive_eq_some {h : Host α ν} {segment : Octets} {src dst : Address} {k : Key} :
    h.subject? (.receive segment src dst) = some k ↔
      ∃ q, Header.parse segment (h.table.policy.ends src dst) = .ok (.ok q) ∧
        h.table.find? src dst q.srcPort q.dstPort = some k := by
  constructor
  · intro hs
    unfold subject? at hs
    dsimp only at hs
    split at hs
    · rename_i q hq
      exact ⟨q, hq, hs⟩
    · cases hs
  · rintro ⟨q, hq, hf⟩
    rw [subject?_receive hq, hf]

/-! ## One call -/

/-- The call `c` to the host `h` has led to the host `h'`, and has not reached beyond its
subject. -/
structure Confined (h : Host α (Recorder ν)) (c : Call α (Recorder ν))
    (h' : Host α (Recorder ν)) : Prop where
  /-- All other records are as before, and no other key has become live or stale. -/
  records : ∀ k, h.subject? c ≠ some k → h'.get? k = h.get? k
  /-- All other keys are found as before. -/
  registrations : ∀ k, h.subject? c ≠ some k → ∀ src dst srcPort dstPort,
    h'.table.find? src dst srcPort dstPort = some k ↔ h.table.find? src dst srcPort dstPort = some k
  nextSeq : h'.table.nextSeq = h.table.nextSeq
  /-- The subject's segments were handed over, and no others. -/
  handed : ∃ ds, h'.link.network.handed = h.link.network.handed ++ ds ∧ ∀ d ∈ ds, ∃ k r,
    h.subject? c = some k ∧ h.get? k = some r ∧ d.isOf r.tuple = true
  silent : (∃ k, c = .listen k ∨ c = .close k) → h'.link.network = h.link.network
  /-- Without a live subject nothing was done. -/
  stale : (h.subject? c).bind h.get? = none →
    h'.table = h.table ∧ h'.link.network = h.link.network

namespace Confined

variable {h h' : Host α (Recorder ν)} {c : Call α (Recorder ν)}

theorem idle (ht : h'.table = h.table) (hn : h'.link.network = h.link.network) :
    h.Confined c h' where
  records k _ := get?_of_table ht k
  registrations k _ src dst srcPort dstPort := by rw [ht]
  nextSeq := by rw [ht]
  handed := ⟨[], by rw [hn, List.append_nil], nofun⟩
  silent _ := hn
  stale _ := ⟨ht, hn⟩

/-- The record of the subject was replaced, and spoke for itself. -/
theorem held [Network ν] {k : Key} {r r' : Connection} {l' : Link α (Recorder ν)}
    {ds : List Datagram} (hs : h.subject? c = some k) (hk : h.get? k = some r)
    (hd : h.link.Emits r ds r' l')
    (hsilent : (∃ k, c = .listen k ∨ c = .close k) → l'.network = h.link.network) :
    h.Confined c (h.hold k r' l') where
  records k' hne := by
    have hk' : k' ≠ k := fun he => hne (by rw [hs, he])
    rw [get?_hold hk, if_neg hk']
  registrations k' _ src dst srcPort dstPort := by simp
  nextSeq := by simp
  handed := ⟨ds, hd.handed, fun d hmem => ⟨k, r, hs, hk, hd.own d hmem⟩⟩
  silent := hsilent
  stale hnone := by
    rw [hs, Option.bind_some, hk] at hnone
    cases hnone

end Confined

variable [Arena α] [Network ν] {h : Host α (Recorder ν)} {k : Key} {r : Connection}

theorem connect_confined (hk : h.get? k = some r) :
    ∃ a h', h.connect k = .ok (a, h') ∧ h.Confined (.connect k) h' := by
  obtain ⟨a, r', l', ho, he⟩ := connect_cases hk
  obtain ⟨ds, hd⟩ := ho.emits
  exact ⟨a, _, he, .held rfl hk hd fun ⟨_, hc⟩ => by simp at hc⟩

omit [Arena α] in
theorem listen_confined (hk : h.get? k = some r) :
    ∃ a h', h.listen k = .ok (a, h') ∧ h.Confined (.listen k) h' := by
  cases hn : r.state.next? .passiveOpen with
  | none => exact ⟨_, _, listen_notPermitted hk hn, .held rfl hk (.silent rfl rfl rfl) fun _ => rfl⟩
  | some t =>
    have hnet := Link.network_settle (h.link.note (.moved r.tuple r.state .passiveOpen t.during))
      (r.step t) t.after
    exact ⟨_, _, listen_eq hk hn, .held rfl hk (.silent hnet rfl rfl) fun _ => hnet⟩

theorem send_confined (hk : h.get? k = some r) (f : Flags) (p : Octets) :
    ∃ a h', h.send k f p = .ok (a, h') ∧ h.Confined (.send k f p) h' := by
  obtain ⟨a, r', l', hs, he⟩ := send_cases hk f p
  obtain ⟨ds, hd⟩ := hs.emits
  exact ⟨a, _, he, .held rfl hk hd fun ⟨_, hc⟩ => by simp at hc⟩

theorem receive_confined (h : Host α (Recorder ν)) (segment : Octets) (src dst : Address) :
    ∃ a h', h.receive segment src dst = .ok (a, h') ∧
      h.Confined (.receive segment src dst) h' := by
  obtain ⟨_, he⟩ | ⟨q, -, he⟩ | ⟨q, k, -, -, a, -, he⟩ |
    ⟨q, k, r, hq, hf, hk, a, r', l', hd, he⟩ := h.receive_cases segment src dst
  · exact ⟨_, _, he, .idle rfl rfl⟩
  · exact ⟨_, _, he, .idle rfl rfl⟩
  · exact ⟨_, _, he, .idle rfl rfl⟩
  · obtain ⟨ds, hd⟩ := hd.emits
    have hown : h.link.Emits r ds r' l' := ⟨hd.handed, hd.tiles, hd.own, hd.fixed⟩
    exact ⟨a, _, he, .held ((subject?_receive hq).trans hf) hk hown fun ⟨_, hc⟩ => by simp at hc⟩

omit [Arena α] [Network ν] in
/-- Closing removes one registration, which is that of the subject. -/
theorem close_confined (hw : h.table.records.WellFormed) (hk : h.get? k = some r)
    (hself : h.table.index.find? r.tuple = some k) :
    ∃ h', h.close k = .ok h' ∧ h.Confined (.close k) h' := by
  obtain ⟨m, hm, he⟩ := ConnectionTable.close_live hw hk
  have hclose : h.close k = .ok ({ h with table := h.table.drop r.tuple m }.note
      (.closed r.tuple r.state)) := by
    unfold close
    rw [he]
    rfl
  refine ⟨_, hclose, ?_⟩
  constructor
  case records =>
    intro k' hne
    have hk' : k' ≠ k := fun he => hne (by rw [he]; rfl)
    exact (ConnectionTable.get?_drop hm r.tuple k').trans (if_neg hk')
  case registrations =>
    intro k' hne src dst srcPort dstPort
    show (h.table.drop r.tuple m).index.find? _ = some k' ↔ h.table.index.find? _ = some k'
    rw [ConnectionTable.find?_drop]
    split
    · rename_i hu
      rw [hu, hself]
      exact iff_of_false nofun hne
    · rfl
  case nextSeq => rfl
  case handed => exact ⟨[], (List.append_nil _).symm, nofun⟩
  case silent => exact fun _ => rfl
  case stale =>
    intro hnone
    have hsome : some r = none := hk.symm.trans hnone
    cases hsome

/-- No call reaches beyond its subject, if every live record is registered under its own
four-tuple. -/
theorem call_confined (hw : h.table.records.WellFormed)
    (hreg : ∀ k r, h.get? k = some r → h.table.index.find? r.tuple = some k)
    {c : Call α (Recorder ν)} (hc : c.Operates ∨ ∃ k, c = .close k) :
    ∃ a h', h.call c = .ok (a, h') ∧ h.Confined c h' := by
  unfold call
  cases c with
  | close k =>
    dsimp only
    cases hk : h.get? k with
    | none =>
      unfold close
      rw [ConnectionTable.close_stale hk]
      exact ⟨_, _, rfl, .idle rfl rfl⟩
    | some r =>
      obtain ⟨h', he, hconf⟩ := close_confined hw hk (hreg k r hk)
      rw [he]
      exact ⟨_, h', rfl, hconf⟩
  | connect k =>
    dsimp only
    cases hk : h.get? k with
    | none => rw [connect_stale hk]; exact ⟨_, _, rfl, .idle rfl rfl⟩
    | some r =>
      obtain ⟨a, h', he, hconf⟩ := connect_confined hk
      rw [he]
      exact ⟨_, h', rfl, hconf⟩
  | listen k =>
    dsimp only
    cases hk : h.get? k with
    | none => rw [listen_stale hk]; exact ⟨_, _, rfl, .idle rfl rfl⟩
    | some r =>
      obtain ⟨a, h', he, hconf⟩ := listen_confined hk
      rw [he]
      exact ⟨_, h', rfl, hconf⟩
  | send k f p =>
    dsimp only
    cases hk : h.get? k with
    | none => rw [send_stale hk]; exact ⟨_, _, rfl, .idle rfl rfl⟩
    | some r =>
      obtain ⟨a, h', he, hconf⟩ := send_confined hk f p
      rw [he]
      exact ⟨_, h', rfl, hconf⟩
  | receive segment src dst =>
    obtain ⟨a, h', he, hconf⟩ := h.receive_confined segment src dst
    dsimp only
    rw [he]
    exact ⟨_, h', rfl, hconf⟩
  | _ => exact (hc.elim id fun ⟨_, he⟩ => by cases he).elim

/-! ## Runs -/

/-- As long as the user leaves addresses and ports alone, what a host does on one connection leaves
the others alone, whatever the arena and the network layer say: connecting, listening, sending,
closing and receiving are confined to their subject. The subject of an accepted segment is the live
record with the segment's addresses and ports. -/
theorem calls_isolated {cs : List (Call α (Recorder ν))} (keep : ∀ c ∈ cs, c.KeepsTuple)
    (cfg : Config) (arena : α) (network : Recorder ν) :
    ∃ log h, (start cfg arena network).run cs = .ok (log, h) ∧
      (∀ c, (c.Operates ∨ ∃ k, c = .close k) →
        ∃ a h', h.call c = .ok (a, h') ∧ h.Confined c h') ∧
      ∀ segment src dst q, Header.parse segment (h.table.policy.ends src dst) = .ok (.ok q) →
        ∀ k, h.subject? (.receive segment src dst) = some k ↔
          ∃ r, h.get? k = some r ∧ r.tuple = .ofSegment src dst q.srcPort q.dstPort := by
  obtain ⟨log, h, he, hr⟩ := run_regular keep cfg arena network
  have hreg (k : Key) (r : Connection) (hk : h.get? k = some r) :
      h.table.index.find? r.tuple = some k := (hr.find?_iff r.tuple k).mpr ⟨r, hk, rfl⟩
  refine ⟨log, h, he, fun c hc => call_confined hr.sound.wellFormed hreg hc, ?_⟩
  intro segment src dst q hq k
  rw [subject?_receive hq]
  exact hr.find?_iff _ k

/-- Two connections are created and the window of one is changed. The other one is opened, and its
SYN is refused: it goes to the second address, and the first record is as before. -/
theorem calls_isolated_refused : ∃ cs : List (Call Scripted (Recorder Outbox)),
    cs = [.create ⟨10, 0, 0, 2⟩ 80 5000, .create ⟨10, 0, 0, 3⟩ 80 5000,
      .edit ⟨0, 1⟩ fun c => { c with window := 1 }] ∧ (∀ c ∈ cs, c.KeepsTuple) ∧
    ∃ c : Call Scripted (Recorder Outbox), c = .connect ⟨1, 2⟩ ∧
      (c.Operates ∨ ∃ k, c = .close k) ∧
      ∃ log h a h', (start { address := ⟨10, 0, 0, 1⟩ } { script := [] }
          { layer := { address := ⟨10, 0, 0, 1⟩, script := [some .device] } }).run cs =
            .ok (log, h) ∧
        h.call c = .ok (a, h') ∧ h'.get? ⟨0, 1⟩ = h.get? ⟨0, 1⟩ ∧
        h'.link.network.handed.map (·.dst) = [⟨10, 0, 0, 3⟩] := by
  have keep : ∀ c ∈ ([.create ⟨10, 0, 0, 2⟩ 80 5000, .create ⟨10, 0, 0, 3⟩ 80 5000,
      .edit ⟨0, 1⟩ fun c => { c with window := 1 }] : List (Call Scripted (Recorder Outbox))),
      c.KeepsTuple := by
    simp [Call.KeepsTuple]
  obtain ⟨log, h, he, hcalls, -⟩ := calls_isolated keep { address := ⟨10, 0, 0, 1⟩ }
    { script := [] } { layer := { address := ⟨10, 0, 0, 1⟩, script := [some .device] } }
  obtain ⟨a, h', he', hconf⟩ := hcalls (.connect ⟨1, 2⟩) (.inl trivial)
  have hother := hconf.records ⟨0, 1⟩ (by simp [subject?])
  refine ⟨_, rfl, keep, _, rfl, .inl trivial, log, h, a, h', he, he', hother, ?_⟩
  cases he
  cases he'
  rfl

end Host

end TcpEngine
