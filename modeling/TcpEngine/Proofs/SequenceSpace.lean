import Mathlib.Algebra.GroupWithZero.Nat
import TcpEngine.Arena.Scripted
import TcpEngine.Network.Outbox
import TcpEngine.Proofs.Recorder
import TcpEngine.Proofs.Registry
import TcpEngine.Proofs.SeqNumber

/-!
# The sequence space of a connection

Each segment that a connection hands to the network layer takes places in a space of 32-bit numbers:
one for each octet of its payload, one for a SYN and one for a FIN (`Datagram.places`). The segments
fill the space from the initial number of the connection on, one behind the other, and the next one
begins where the last one ends (`Tiles`).

* `Link.Emits`: what a connection has handed over, and where its next segment begins. Sending,
  opening and receiving lead to it (`Link.Sent.emits`, `Link.Opened.emits`, `Link.Fed.emits`).
* `Entry.Emission`: a call hands over segments of one connection, or none at all
  (`Host.call_emission`).
* `Host.segments_tile`: the segments of a connection since it was created, over any run.
-/

namespace TcpEngine

/-! ## Segments -/

namespace Datagram

/-- The header of the segment in a datagram, if there is one. -/
def header? (d : Datagram) : Option Header := (Header.read d.payload).toOption

/-- The sequence number of the segment. -/
def seqNumber? (d : Datagram) : Option SeqNumber := d.header?.map (·.seqNumber)

/-- The places that the segment takes in the sequence space. -/
def places (d : Datagram) : Nat :=
  d.segmentPayload.length + (d.header?.map fun q => q.flags.syn.toNat + q.flags.fin.toNat).getD 0

/-- The segment goes to the other side of the connection with the four-tuple `u`, from and to its
ports. -/
def isOf (d : Datagram) (u : FourTuple) : Bool :=
  d.dst == u.remoteAddr &&
    d.header?.any fun q => q.srcPort == u.localPort && q.dstPort == u.remotePort

/-- With one local address, a segment is of one connection only. -/
theorem eq_of_isOf {d : Datagram} {u u' : FourTuple} (h : d.isOf u = true) (h' : d.isOf u' = true)
    (hl : u.localAddr = u'.localAddr) : u = u' := by
  unfold isOf at h h'
  cases hq : d.header? with
  | none => simp [hq] at h
  | some q =>
    simp only [hq, Option.any_some, Bool.and_eq_true, beq_iff_eq] at h h'
    obtain ⟨hd, hs, hp⟩ := h
    obtain ⟨hd', hs', hp'⟩ := h'
    cases u
    cases u'
    simp_all

end Datagram

/-- The segments `ds` fill the sequence space between two numbers. -/
inductive Tiles : SeqNumber → List Datagram → SeqNumber → Prop
  | nil (s : SeqNumber) : Tiles s [] s
  | cons {s e : SeqNumber} {d : Datagram} {ds : List Datagram} : d.seqNumber? = some s →
    Tiles (s.add d.places) ds e → Tiles s (d :: ds) e

namespace Tiles

variable {s m e : SeqNumber} {d : Datagram} {ds ds' : List Datagram}

theorem append (h : Tiles s ds m) (h' : Tiles m ds' e) : Tiles s (ds ++ ds') e := by
  induction h with
  | nil _ => exact h'
  | cons hd _ ih => exact .cons hd (ih h')

/-- The end lies behind the places of all segments. -/
theorem end_eq (h : Tiles s ds e) : e = s.add (ds.map Datagram.places).sum := by
  induction h with
  | nil s => simp
  | cons _ _ ih => rw [ih, SeqNumber.add_add, List.map_cons, List.sum_cons]

/-- Each segment begins behind the places of those before it. -/
theorem seqNumber_eq (h : Tiles s ds e) {i : Nat} (hi : ds[i]? = some d) :
    d.seqNumber? = some (s.add ((ds.take i).map Datagram.places).sum) := by
  induction h generalizing i with
  | nil _ => cases hi
  | cons hd _ ih =>
    cases i with
    | zero =>
      cases hi
      simpa using hd
    | succ i =>
      rw [ih hi, SeqNumber.add_add, List.take_succ_cons, List.map_cons, List.sum_cons]

end Tiles

/-! ## What a connection hands over -/

namespace Link

variable {α ν : Type} [Network ν]

/-- The record `c` has become `c'`, and the segments `ds` of its connection were handed over. -/
structure Emits (l : Link α (Recorder ν)) (c : Connection) (ds : List Datagram) (c' : Connection)
    (l' : Link α (Recorder ν)) : Prop where
  handed : l'.network.handed = l.network.handed ++ ds
  tiles : Tiles c.sendNext ds c'.sendNext
  own : ∀ d ∈ ds, d.isOf c.tuple = true
  fixed : c'.fixed = c.fixed

section

variable {l l₁ l' : Link α (Recorder ν)} {c c₁ c' : Connection} {ds ds' : List Datagram}

omit [Network ν] in
theorem Emits.silent (hn : l'.network = l.network) (hs : c'.sendNext = c.sendNext)
    (hf : c'.fixed = c.fixed) : l.Emits c [] c' l' where
  handed := by rw [hn, List.append_nil]
  tiles := by rw [hs]; exact .nil _
  own d hd := by cases hd
  fixed := hf

omit [Network ν] in
theorem Emits.trans (h : l.Emits c ds c₁ l₁) (h' : l₁.Emits c₁ ds' c' l') :
    l.Emits c (ds ++ ds') c' l' where
  handed := by rw [h'.handed, h.handed, List.append_assoc]
  tiles := h.tiles.append h'.tiles
  own d hd := by
    rcases List.mem_append.mp hd with hd | hd
    · exact h.own d hd
    · rw [← Connection.tuple_eq h.fixed]
      exact h'.own d hd
  fixed := h'.fixed.trans h.fixed

theorem Handed.emits {f : Flags} {p : Octets} {r : Option Refusal} (hp : p.length ≤ maxPayload)
    (h : l.Handed c f p r l') : ∃ ds, l.Emits c ds (c.advance f p) l' := by
  let d : Datagram :=
    { src := Network.address l.network, dst := c.tuple.remoteAddr, protocol := .tcp
      payload := c.segment f p }
  have hq : d.header? = some (c.nextHeader f p) := by
    show (Header.read (c.segment f p)).toOption = _
    rw [Connection.segment, Header.read_segment]
    rfl
  have hpayload : d.segmentPayload = p := by
    have hfront : ((c.nextHeader f p).octets ((c.nextHeader f p).checksum p c.tuple.localAddr
      c.tuple.remoteAddr)).length = Segment.headerLen := Header.length_octets ..
    exact List.drop_left' hfront
  refine ⟨[d], h.handed, .cons ?_ ?_, ?_, rfl⟩
  · rw [Datagram.seqNumber?, hq]
    rfl
  · have hplaces : d.places = (c.nextHeader f p).sequenceLen := by
      rw [Datagram.places, hpayload, hq, Header.sequenceLen, c.payloadLen_nextHeader f hp]
      rfl
    rw [hplaces]
    exact .nil _
  · intro d' hd'
    cases List.mem_singleton.mp hd'
    simp [Datagram.isOf, hq, d, Connection.nextHeader, Connection.header]

theorem Sent.emits {f : Flags} {p : Octets} {a : Except Error Unit} (h : l.Sent c f p a c' l') :
    ∃ ds, l.Emits c ds c' l' := by
  cases h with
  | tooLarge _ => exact ⟨[], .silent rfl rfl rfl⟩
  | unbuilt _ hu => exact ⟨[], .silent hu.network rfl rfl⟩
  | handed hp hh => exact hh.emits hp

theorem Replied.emits {fs : List Flags} {r : Option Refusal} (h : l.Replied c fs r c' l') :
    ∃ ds, l.Emits c ds c' l' := by
  induction h with
  | nil _ _ => exact ⟨[], .silent rfl rfl rfl⟩
  | cons hh _ ih =>
    obtain ⟨ds, hd⟩ := hh.emits (Nat.zero_le _)
    obtain ⟨ds', hd'⟩ := ih
    exact ⟨ds ++ ds', hd.trans hd'⟩

/-- A transition that is undone has handed nothing over. -/
theorem Carried.emits {e : Event} {t : Transition} {a : Except Error Unit}
    (h : l.Carried c e t a c' l') : ∃ ds, l.Emits c ds c' l' := by
  have hstep : l.Emits c [] (c.step t) (l.note (.moved c.tuple c.state e t.during)) :=
    .silent rfl rfl rfl
  cases h with
  | @completed r c₁ l₁ hr =>
    obtain ⟨ds, hd⟩ := hr.emits
    have hsettle : l₁.Emits c₁ [] { c₁ with state := t.after } (l₁.settle c₁ t.after) :=
      .silent (network_settle ..) rfl rfl
    exact ⟨_, (hstep.trans hd).trans hsettle⟩
  | undone _ hu => exact ⟨[], .silent hu.network rfl rfl⟩
  | halted _ _ hr hu =>
    obtain ⟨ds, hd⟩ := hr.emits
    exact ⟨_, (hstep.trans hd).trans (.silent hu.network rfl rfl)⟩

theorem Opened.emits {e : Event} {a : Except Error Unit} (h : l.Opened c e a c' l') :
    ∃ ds, l.Emits c ds c' l' := by
  cases h with
  | notPermitted _ => exact ⟨[], .silent rfl rfl rfl⟩
  | carried _ hc => exact hc.emits

theorem Fed.emits {r : Option Refusal} {es : List Event} {a : Except Error Unit}
    (h : l.Fed c r es a c' l') : ∃ ds, l.Emits c ds c' l' := by
  induction h with
  | nil _ _ _ => exact ⟨[], .silent rfl rfl rfl⟩
  | ignored _ _ ih =>
    obtain ⟨ds, hd⟩ := ih
    exact ⟨ds, hd.handed, hd.tiles, hd.own, hd.fixed⟩
  | carried _ hc _ ih =>
    obtain ⟨ds, hd⟩ := hc.emits
    obtain ⟨ds', hd'⟩ := ih
    exact ⟨_, hd.trans hd'⟩
  | stopped _ hc => exact hc.emits

end

end Link

/-! ## Calls -/

/-- What a record says about its sequence space. -/
def Connection.numbering (c : Connection) : FourTuple × SeqNumber × SeqNumber :=
  (c.tuple, c.initialSeq, c.sendNext)

/-- A call that does not change the addresses, ports and own sequence numbers of a record. -/
def Call.KeepsNumbering {α ν : Type} : Call α ν → Prop
  | .edit _ f => ∀ c, (f c).numbering = c.numbering
  | _ => True

theorem Call.KeepsNumbering.keepsTuple {α ν : Type} {c : Call α ν} (h : c.KeepsNumbering) :
    c.KeepsTuple := by
  cases c with
  | edit k f => exact fun c => congrArg Prod.fst (h c)
  | _ => trivial

namespace Entry

variable {α ν : Type}

/-- The datagrams that were handed over during a call that has led to the host `h`. -/
def handed (e : Entry α (Recorder ν)) (h : Host α (Recorder ν)) : List Datagram :=
  match e.call with
  | .attach .. => []
  | _ => h.link.network.handed.drop e.before.link.network.handed.length

/-- What a call hands over. -/
inductive Emission (e : Entry α (Recorder ν)) (h : Host α (Recorder ν)) : Prop
  /-- Segments of one connection. -/
  | spoken {k : Key} {c c' : Connection} {ds : List Datagram} : e.created? = none →
    e.before.get? k = some c → h.table = e.before.table.put k c' →
    e.before.link.Emits c ds c' h.link → e.handed h = ds → e.Emission h
  /-- Nothing. -/
  | silent : e.handed h = [] → (∀ k c', h.get? k = some c' →
      (∃ u, e.created? = some (k, u) ∧ c'.sendNext = c'.initialSeq) ∨
      ((∀ u, e.created? ≠ some (k, u)) ∧
        ∃ c, e.before.get? k = some c ∧ c'.numbering = c.numbering)) → e.Emission h

section

variable {e : Entry α (Recorder ν)} {h : Host α (Recorder ν)}

theorem Emission.kept (hc : e.created? = none) (hh : e.handed h = [])
    (ht : h.table = e.before.table) : e.Emission h := by
  refine .silent hh fun k c' hk =>
    .inr ⟨fun u hu => ?_, c', (Host.get?_of_table ht k).symm.trans hk, rfl⟩
  rw [hc] at hu
  cases hu

theorem Emission.held {k : Key} {c c' : Connection} {l' : Link α (Recorder ν)}
    (hc : e.created? = none) (hk : e.before.get? k = some c)
    (hh : e.handed (e.before.hold k c' l') =
      l'.network.handed.drop e.before.link.network.handed.length)
    (hd : ∃ ds, e.before.link.Emits c ds c' l') : e.Emission (e.before.hold k c' l') := by
  obtain ⟨ds, hd⟩ := hd
  refine .spoken hc hk rfl hd ?_
  rw [hh, hd.handed, List.drop_left]

end

end Entry

namespace Host

variable {α ν : Type} [Network ν] {h h' : Host α (Recorder ν)} {c : Call α (Recorder ν)}
  {a : Answer}

/-- A call hands over segments of one connection, or none at all. -/
theorem Called.emission (hc : h.Called c a h') (keep : c.KeepsNumbering) :
    (Entry.mk h c a).Emission h' := by
  cases hc with
  | @created _ _ _ k m _ hm =>
    refine .silent (List.drop_length ..) fun k' c' hk' => ?_
    have hk' : m.get? k' = some c' := hk'
    rw [hm.get?] at hk'
    split at hk'
    · rename_i hkk
      cases hk'
      subst hkk
      exact .inl ⟨_, rfl, rfl⟩
    · rename_i hne
      refine .inr ⟨fun u hu => hne ?_, c', hk', rfl⟩
      cases hu
      rfl
  | @closed k c m hk hm =>
    refine .silent (List.drop_length ..) fun k' c' hk' => ?_
    have hk' : m.get? k' = some c' := hk'
    rw [hm.get?] at hk'
    split at hk'
    · cases hk'
    · exact .inr ⟨nofun, c', hk', rfl⟩
  | @edited k c f hk =>
    refine .silent (List.drop_length ..) fun k' c' hk' => .inr ⟨nofun, ?_⟩
    have hk' : (h.table.put k (f c)).get? k' = some c' := hk'
    rw [ConnectionTable.get?_put hk] at hk'
    split at hk'
    · rename_i hkk
      cases hk'
      subst hkk
      exact ⟨c, hk, keep c⟩
    · exact ⟨c', hk', rfl⟩
  | connected hk ho => exact .held rfl hk rfl ho.emits
  | listened hk ho => exact .held rfl hk rfl ho.emits
  | sent hk hs => exact .held rfl hk rfl hs.emits
  | received _ hk hf =>
    obtain ⟨ds, hd⟩ := hf.emits
    exact .held rfl hk rfl ⟨ds, hd.handed, hd.tiles, hd.own, hd.fixed⟩
  | attached _ _ => exact .kept rfl rfl rfl
  | present _ => exact .kept rfl (List.drop_length ..) rfl
  | noSlot _ _ => exact .kept rfl (List.drop_length ..) rfl
  | closedStale _ => exact .kept rfl (List.drop_length ..) rfl
  | found _ _ _ _ => exact .kept rfl (List.drop_length ..) rfl
  | got _ => exact .kept rfl (List.drop_length ..) rfl
  | editedStale _ _ => exact .kept rfl (List.drop_length ..) rfl
  | connectedStale _ => exact .kept rfl (List.drop_length ..) rfl
  | listenedStale _ => exact .kept rfl (List.drop_length ..) rfl
  | sentStale _ _ _ => exact .kept rfl (List.drop_length ..) rfl
  | dropped => exact .kept rfl (List.drop_length ..) rfl

end Host

/-! ## Runs -/

namespace History

variable {α ν : Type}

/-- What was handed over since the record with the key `k` was created, in a run that has led to the
host `h`. -/
def handedSince : History α (Recorder ν) → Host α (Recorder ν) → Key → List Datagram
  | [], _, _ => []
  | e :: log, h, k =>
    if e.created?.map Prod.fst = some k then [] else handedSince log e.before k ++ e.handed h

/-- What of that is of the connection with the four-tuple `u`. -/
def segments (log : History α (Recorder ν)) (h : Host α (Recorder ν)) (k : Key) (u : FourTuple) :
    List Datagram :=
  (handedSince log h k).filter (·.isOf u)

/-- The segments of every live record fill its sequence space. -/
def Tiled (log : History α (Recorder ν)) (h : Host α (Recorder ν)) : Prop :=
  ∀ k c, h.get? k = some c → Tiles c.initialSeq (segments log h k c.tuple) c.sendNext

variable {log : History α (Recorder ν)} {e : Entry α (Recorder ν)} {h : Host α (Recorder ν)}

theorem segments_created {k : Key} {u : FourTuple} (hc : e.created? = some (k, u))
    (v : FourTuple) : segments (e :: log) h k v = [] := by
  simp [segments, handedSince, hc]

theorem segments_other {k : Key} (hc : ∀ u, e.created? ≠ some (k, u)) (v : FourTuple) :
    segments (e :: log) h k v =
      segments log e.before k v ++ (e.handed h).filter (·.isOf v) := by
  have hne : e.created?.map Prod.fst ≠ some k := fun hk => by
    obtain ⟨⟨k', u⟩, hku, rfl⟩ := Option.map_eq_some_iff.mp hk
    exact hc u hku
  simp [segments, handedSince, hne]

/-- The segments handed over by a call are those of the connection that it is for. -/
theorem Tiled.step (hr : Regular log e.before.table) (ht : Tiled log e.before)
    (he : e.Emission h) : Tiled (e :: log) h := by
  intro k' c' hk'
  cases he with
  | @spoken k c c₁ ds hc hk hput hd hh =>
    have hk' : h.table.get? k' = some c' := hk'
    rw [hput, ConnectionTable.get?_put hk] at hk'
    rw [segments_other (by simp [hc]), hh]
    split at hk'
    · rename_i hkk
      cases hk'
      subst hkk
      have hseq : c'.initialSeq = c.initialSeq := congrArg (fun x => x.2.1) hd.fixed
      rw [Connection.tuple_eq hd.fixed, hseq, List.filter_eq_self.mpr hd.own]
      exact (ht _ _ hk).append hd.tiles
    · rename_i hne
      have hnone : ds.filter (·.isOf c'.tuple) = [] := by
        refine List.filter_eq_nil_iff.mpr fun d hdm hof => hne ?_
        have htuple := Datagram.eq_of_isOf (hd.own d hdm) hof
          ((hr.home k c hk).trans (hr.home k' c' hk').symm)
        exact (hr.unique hk hk' htuple).symm
      rw [hnone, List.append_nil]
      exact ht k' c' hk'
  | silent hh hrec =>
    obtain ⟨u, hc, hs⟩ | ⟨hc, c, hk, hn⟩ := hrec k' c' hk'
    · rw [segments_created hc, hs]
      exact .nil _
    · obtain ⟨htuple, hseq, hs⟩ : c'.tuple = c.tuple ∧ c'.initialSeq = c.initialSeq ∧
          c'.sendNext = c.sendNext := by
        simpa [Connection.numbering] using hn
      rw [segments_other hc, hh, htuple, hseq, hs, List.filter_nil, List.append_nil]
      exact ht k' c hk

end History

namespace Host

variable {α ν : Type} [Arena α] [Network ν]

/-- As long as the user leaves addresses, ports and own sequence numbers alone, the segments of
every connection, in the order in which they were handed over, accepted or refused, carry its
initial sequence number plus the places of the segments before. The next one is to carry the
initial number plus the places of all of them. -/
theorem segments_tile {cs : List (Call α (Recorder ν))} (keep : ∀ c ∈ cs, c.KeepsNumbering)
    (cfg : Config) (arena : α) (network : Recorder ν) :
    ∃ log h, (start cfg arena network).run cs = .ok (log, h) ∧ ∀ k c, h.get? k = some c →
      (∀ i d, (History.segments log h k c.tuple)[i]? = some d → d.seqNumber? = some
        (c.initialSeq.add (((History.segments log h k c.tuple).take i).map Datagram.places).sum)) ∧
      c.sendNext =
        c.initialSeq.add ((History.segments log h k c.tuple).map Datagram.places).sum := by
  have hrun : ∃ log h, (start cfg arena network).run cs = .ok (log, h) ∧
      History.Regular log h.table ∧ History.Tiled log h := by
    refine run_induction ⟨regular_start cfg, nofun⟩ ?_
    rintro log h c hc ⟨hr, ht⟩
    obtain ⟨a, h', he, hcalled⟩ := call_cases hr.sound.wellFormed c
    exact ⟨a, h', he, hr.step (keep c hc).keepsTuple hcalled.effect,
      ht.step hr (hcalled.emission (keep c hc))⟩
  obtain ⟨log, h, he, -, ht⟩ := hrun
  exact ⟨log, h, he, fun k c hk => ⟨fun i d hi => (ht k c hk).seqNumber_eq hi, (ht k c hk).end_eq⟩⟩

/-- The SYN of a connection is refused, three octets are sent, and there is no memory for two more.
-/
theorem segments_tile_refused : ∃ cs : List (Call Scripted (Recorder Outbox)),
    cs = [.create ⟨10, 0, 0, 2⟩ 80 5000, .connect ⟨0, 1⟩,
      .edit ⟨0, 1⟩ fun c => { c with window := 1 }, .send ⟨0, 1⟩ .ACK [1, 2, 3],
      .send ⟨0, 1⟩ .ACK [4, 5]] ∧ (∀ c ∈ cs, c.KeepsNumbering) ∧
    ∃ log h c, (start { address := ⟨10, 0, 0, 1⟩ }
        { script := [some 0, some 0, some 0, some 0, none] }
        { layer := { address := ⟨10, 0, 0, 1⟩, script := [some .device] } }).run cs =
          .ok (log, h) ∧
      h.get? ⟨0, 1⟩ = some c ∧
      (History.segments log h ⟨0, 1⟩ c.tuple).map Datagram.places = [1, 3] ∧
      c.sendNext =
        c.initialSeq.add ((History.segments log h ⟨0, 1⟩ c.tuple).map Datagram.places).sum := by
  have keep : ∀ c ∈ ([.create ⟨10, 0, 0, 2⟩ 80 5000, .connect ⟨0, 1⟩,
      .edit ⟨0, 1⟩ fun c => { c with window := 1 }, .send ⟨0, 1⟩ .ACK [1, 2, 3],
      .send ⟨0, 1⟩ .ACK [4, 5]] : List (Call Scripted (Recorder Outbox))), c.KeepsNumbering := by
    simp [Call.KeepsNumbering, Connection.numbering]
  obtain ⟨log, h, he, ht⟩ := segments_tile keep { address := ⟨10, 0, 0, 1⟩ }
    { script := [some 0, some 0, some 0, some 0, none] }
    { layer := { address := ⟨10, 0, 0, 1⟩, script := [some .device] } }
  refine ⟨_, rfl, keep, log, h, ?_⟩
  cases he
  exact ⟨_, rfl, rfl, rfl, (ht _ _ rfl).2⟩

end Host

end TcpEngine
