import TcpEngine.Loopback
import TcpEngine.Proofs.Reliability
import TcpEngine.Proofs.SeqNumber
import TcpEngine.Proofs.Verification

/-!
# Hosts that talk to each other

With an outbox that accepts every segment, and memory for them, what becomes of a record and what
it says in turn is a function of what it hears. The hosts only pass that on.

* `Utterance`: what a record has said. It is a datagram, which the other side reads as it was meant
  (`Utterance.header_datagram`).
* `Connection.hear`: the record behind what it hears, and its replies. There is one lemma for each
  segment that moves a record on (`hear_syn`, `hear_synAck`, `hear_message`, `hear_fin`).
* `Loopback.Stands`: a host with one record, and what the record has said. Sending, opening and
  passing datagrams do with the host what they do with the record (`Stands.say`, `Stands.carryOut`,
  `Stands.pass`).
-/

namespace TcpEngine

/-- The four-tuple of a connection as the other side has it. -/
def FourTuple.mirror (u : FourTuple) : FourTuple :=
  { localAddr := u.remoteAddr, remoteAddr := u.localAddr, localPort := u.remotePort
    remotePort := u.localPort }

/-! ## What a record says -/

/-- A segment that a record has sent. -/
structure Utterance where
  speaker : Connection
  flags : Flags
  payload : Octets

namespace Utterance

def header (x : Utterance) : Header := x.speaker.nextHeader x.flags x.payload

def datagram (x : Utterance) : Datagram :=
  { src := x.speaker.tuple.localAddr, dst := x.speaker.tuple.remoteAddr, protocol := .tcp
    payload := x.speaker.segment x.flags x.payload }

/-- The line that is printed when it is passed on. -/
def line (x : Utterance) : Loopback.Line :=
  .segment x.speaker.tuple.localAddr x.speaker.tuple.remoteAddr x.header

/-- It was said on the connection `u`, and fits a segment. -/
structure On (u : FourTuple) (x : Utterance) : Prop where
  tuple : x.speaker.tuple = u
  fits : x.payload.length ≤ Link.maxPayload

variable {u : FourTuple} {x : Utterance}

theorem On.parse (hx : x.On u) (policy : ChecksumPolicy) :
    Header.parse x.datagram.payload (policy.ends x.datagram.src x.datagram.dst) =
      .ok (.ok x.header) :=
  Header.parse_segment_ends x.header (Link.fits hx.fits) policy x.speaker.tuple.localAddr
    x.speaker.tuple.remoteAddr

theorem On.header_datagram (hx : x.On u) : x.datagram.header = .ok (.ok x.header) :=
  hx.parse .verify

end Utterance

namespace Connection

/-- The record behind its replies, and what it says in them. -/
def replies (c : Connection) : List Flags → Connection × List Utterance
  | [] => (c, [])
  | f :: fs =>
    let r := (c.advance f []).replies fs
    (r.1, ⟨c, f, []⟩ :: r.2)

/-- The record behind a transition, and what it says in it. -/
def turn (c : Connection) (t : Transition) : Connection × List Utterance :=
  let r := (c.step t).replies t.replies
  ({ r.1 with state := t.after }, r.2)

/-- The record behind some events, and what it says to them. -/
def heed (c : Connection) : List Event → Connection × List Utterance
  | [] => (c, [])
  | e :: es => match c.state.next? e with
    | none => c.heed es
    | some t =>
      let r := c.turn t
      let r' := r.1.heed es
      (r'.1, r.2 ++ r'.2)

/-- The record behind what it hears, and what it says to that. -/
def hear (c : Connection) : List Utterance → Connection × List Utterance
  | [] => (c, [])
  | x :: xs =>
    let r := c.heed ((Event.ofHeader x.header).filterMap id)
    let r' := r.1.hear xs
    (r'.1, r.2 ++ r'.2)

theorem tuple_replies (c : Connection) (fs : List Flags) : (c.replies fs).1.tuple = c.tuple := by
  induction fs generalizing c with
  | nil => rfl
  | cons f fs ih => exact ih (c.advance f [])

theorem tuple_turn (c : Connection) (t : Transition) : (c.turn t).1.tuple = c.tuple :=
  tuple_replies (c.step t) t.replies

theorem tuple_heed (c : Connection) (es : List Event) : (c.heed es).1.tuple = c.tuple := by
  induction es generalizing c with
  | nil => rfl
  | cons e es ih =>
    unfold heed
    split
    · exact ih c
    · exact (ih _).trans (tuple_turn c _)

/-- Segments are heard one after the other. -/
theorem hear_cons (c : Connection) (x : Utterance) (xs : List Utterance) : c.hear (x :: xs) =
    (((c.hear [x]).1.hear xs).1, (c.hear [x]).2 ++ ((c.hear [x]).1.hear xs).2) := by
  simp only [hear, List.append_nil]

/-- What a record makes of a segment depends on the flags and the sequence number. -/
theorem hear_one (c : Connection) (x : Utterance) : c.hear [x] =
    c.heed ([if x.flags.syn then some (.syn x.speaker.sendNext) else none,
      if x.flags.ack then some .ack else none,
      if x.flags.fin then some (.fin x.speaker.sendNext) else none].filterMap id) := by
  simp only [hear, List.append_nil]
  rfl

section

variable (u : FourTuple) (a i b : SeqNumber) (w : UInt16) {x : Utterance}

/-- A new connection is opened with a SYN. -/
theorem turn_open : turn ⟨.closed, u, a, i, b, w⟩ ⟨.synSent, none, [.SYN], .synSent⟩ =
    (⟨.synSent, u, a.add 1, i, b, w⟩, [⟨⟨.synSent, u, a, i, b, w⟩, .SYN, []⟩]) := by
  simp only [turn, replies, advance_nil]
  rfl

/-- A SYN is answered in LISTEN. -/
theorem hear_syn (hx : x.flags = .SYN) : hear ⟨.listen, u, a, i, b, w⟩ [x] =
    (⟨.synReceived, u, a.add 1, i, x.speaker.sendNext.add 1, w⟩,
      [⟨⟨.synReceived, u, a, i, x.speaker.sendNext.add 1, w⟩, .SYN ||| .ACK, []⟩]) := by
  rw [hear_one, hx]
  show heed ⟨.listen, u, a, i, b, w⟩ [.syn x.speaker.sendNext] = _
  simp only [heed, State.next?, turn, replies, advance_nil]
  rfl

/-- The answer opens the connection, and is not acknowledged. -/
theorem hear_synAck (hx : x.flags = .SYN ||| .ACK) : hear ⟨.synSent, u, a, i, b, w⟩ [x] =
    (⟨.established, u, a, i, b, w⟩, []) := by
  rw [hear_one, hx]
  rfl

/-- A message acknowledges the answer, whatever it says. -/
theorem hear_message (hx : x.flags = .ACK ||| .PSH) : hear ⟨.synReceived, u, a, i, b, w⟩ [x] =
    (⟨.established, u, a, i, b, w⟩, []) := by
  rw [hear_one, hx]
  rfl

/-- A FIN is acknowledged, and answered with another one. -/
theorem hear_fin (hx : x.flags = .FIN ||| .ACK) : hear ⟨.established, u, a, i, b, w⟩ [x] =
    (⟨.lastAck, u, a.add 1, i, x.speaker.sendNext.add 1, w⟩,
      [⟨⟨.closeWait, u, a, i, x.speaker.sendNext.add 1, w⟩, .ACK, []⟩,
       ⟨⟨.closeWait, u, a, i, x.speaker.sendNext.add 1, w⟩, .FIN ||| .ACK, []⟩]) := by
  rw [hear_one, hx]
  show heed ⟨.established, u, a, i, b, w⟩ [.ack, .fin x.speaker.sendNext] = _
  simp only [heed, State.next?, turn, replies, advance_nil]
  have hack : a.add Flags.ACK.sequenceLen = a := a.add_zero
  simp only [step, hack]
  rfl

/-- Nothing is left to acknowledge in ESTABLISHED. -/
theorem hear_ack (hx : x.flags = .ACK) (xs : List Utterance) :
    hear ⟨.established, u, a, i, b, w⟩ (x :: xs) = hear ⟨.established, u, a, i, b, w⟩ xs := by
  have hone : hear ⟨.established, u, a, i, b, w⟩ [x] = (⟨.established, u, a, i, b, w⟩, []) := by
    rw [hear_one, hx]
    rfl
  rw [hear_cons, hone]
  rfl

end

end Connection

/-! ## A host with one record -/

namespace Loopback

/-- The host has one record, `c` under the key `k`, whose words `xs` are in its outbox. -/
structure Stands (h : Side) (k : Key) (c : Connection) (xs : List Utterance) : Prop where
  live : h.get? k = some c
  found : h.table.index.find? c.tuple = some k
  policy : h.table.policy = .verify
  network : h.link.network = { address := c.tuple.localAddr, sent := xs.map Utterance.datagram }
  wellFormed : h.table.records.WellFormed
  one : h.table.len = 1

namespace Stands

variable {h : Side} {k : Key} {c : Connection} {xs : List Utterance}

/-- The record is replaced, and has said more. -/
theorem hold (hs : Stands h k c xs) (c' : Connection) (l : Link Unbounded Outbox)
    (ys : List Utterance) (hc : c'.tuple = c.tuple)
    (hl : l.network = { address := c.tuple.localAddr, sent := ys.map Utterance.datagram }) :
    Stands (h.hold k c' l) k c' ys where
  live := Host.get?_hold_self hs.live c' l
  found := by
    rw [Host.table_hold, ConnectionTable.index_put, hc]
    exact hs.found
  policy := by
    rw [Host.table_hold, ConnectionTable.policy_put]
    exact hs.policy
  network := by rw [Host.link_hold, hl, hc]
  wellFormed := by
    have hk : h.table.get? k = some c := hs.live
    rw [Host.table_hold, ConnectionTable.put_eq hk]
    exact hs.wellFormed.store hk c'
  one := by
    rw [Host.table_hold, ConnectionTable.len_put]
    exact hs.one

/-- The outbox accepts what is handed over. -/
theorem handed (hs : Stands h k c xs) {f : Flags} {p : Octets} {r : Option Refusal}
    {l : Link Unbounded Outbox} (hh : h.link.Handed c f p r l) : r = none ∧
      l.network = { address := c.tuple.localAddr
                    sent := (xs ++ [Utterance.mk c f p]).map Utterance.datagram } := by
  have hd : Network.deliver h.link.network c.tuple.remoteAddr .tcp (c.segment f p) =
      (.ok (), { address := c.tuple.localAddr
                 sent := (xs ++ [Utterance.mk c f p]).map Utterance.datagram }) := by
    rw [hs.network, List.map_append]
    rfl
  refine ⟨?_, hh.network.trans (congrArg Prod.snd hd)⟩
  cases hh with
  | accepted _ _ => rfl
  | refused _ hd' => cases hd.symm.trans hd'

theorem say (hs : Stands h k c xs) (f : Flags) {p : Octets} (hp : p.length ≤ Link.maxPayload) :
    ∃ h', h.send k f p = .ok (.ok (), h') ∧ Stands h' k (c.advance f p) (xs ++ [⟨c, f, p⟩]) := by
  obtain ⟨r, l, hh, -, he⟩ := Link.send_served (l := h.link) (f := f)
    (Unbounded.reliable.serves (Link.fits hp)) hp trivial c
  obtain ⟨rfl, hl⟩ := hs.handed hh
  exact ⟨_, Host.send_eq hs.live he, hs.hold _ _ _ rfl hl⟩

theorem reply (hs : Stands h k c xs) (snapshot : Connection) (first : Bool) (fs : List Flags) :
    ∃ h', h.reply k snapshot first none fs = .ok (.ok none, h') ∧
      Stands h' k (c.replies fs).1 (xs ++ (c.replies fs).2) := by
  induction fs generalizing h c xs first with
  | nil => exact ⟨h, rfl, by simpa [Connection.replies] using hs⟩
  | cons f fs ih =>
    obtain ⟨h₁, hsend, hs₁⟩ := hs.say f (p := []) (Nat.zero_le _)
    obtain ⟨h', he, hs'⟩ := ih hs₁ false
    refine ⟨h', ?_, by simpa [Connection.replies] using hs'⟩
    rw [Host.reply_cons (r := none) hsend]
    exact he

/-- A transition is completed. -/
theorem carryOut (hs : Stands h k c xs) (e : Event) (t : Transition) :
    ∃ h', h.carryOut k e t = .ok (Host.answerOf none, h') ∧
      Stands h' k (c.turn t).1 (xs ++ (c.turn t).2) := by
  have hs₁ := hs.hold (c.step t) (h.link.note (.moved c.tuple c.state e t.during)) xs rfl hs.network
  obtain ⟨h₂, he, hs₂⟩ := hs₁.reply c true t.replies
  refine ⟨_, Host.carryOut_completed hs.live he hs₂.live, hs₂.hold (c.turn t).1 _ _ rfl ?_⟩
  rw [Link.network_settle]
  exact hs₂.network

theorem connect (hs : Stands h k c xs) {t : Transition}
    (hn : c.state.next? .activeOpen = some t) :
    ∃ h', h.connect k = .ok (.ok (), h') ∧ Stands h' k (c.turn t).1 (xs ++ (c.turn t).2) := by
  rw [Host.connect_eq hs.live hn]
  exact hs.carryOut .activeOpen t

theorem listen (hs : Stands h k c xs) (hc : c.state = .closed) :
    ∃ h', h.listen k = .ok (.ok (), h') ∧ Stands h' k { c with state := .listen } xs := by
  have hn : c.state.next? .passiveOpen = some (.to .listen) := by
    rw [hc]
    rfl
  refine ⟨_, Host.listen_eq hs.live hn, hs.hold _ _ xs rfl ?_⟩
  rw [Link.network_settle]
  exact hs.network

theorem feed (hs : Stands h k c xs) (es : List Event) :
    ∃ h', h.feed k none es = .ok (.ok (), h') ∧
      Stands h' k (c.heed es).1 (xs ++ (c.heed es).2) := by
  induction es generalizing h c xs with
  | nil => exact ⟨h, rfl, by simpa [Connection.heed] using hs⟩
  | cons e es ih =>
    cases hn : c.state.next? e with
    | none =>
      have hs₁ := hs.hold c (h.link.note (.ignored c.tuple e c.state)) xs rfl hs.network
      obtain ⟨h', he, hs'⟩ := ih hs₁
      refine ⟨h', (Host.feed_ignored hs.live hn none es).trans he, ?_⟩
      simpa [Connection.heed, hn] using hs'
    | some t =>
      obtain ⟨h₁, hc, hs₁⟩ := hs.carryOut e t
      obtain ⟨h', he, hs'⟩ := ih hs₁
      refine ⟨h', (Host.feed_carried hs.live hn hc none es).trans he, ?_⟩
      simpa [Connection.heed, hn] using hs'

/-- A datagram from the other side is received. -/
theorem receive (hs : Stands h k c xs) {x : Utterance} (hx : x.On c.tuple.mirror) :
    ∃ h', h.receive x.datagram.payload x.datagram.src x.datagram.dst = .ok (.ok (), h') ∧
      Stands h' k (c.hear [x]).1 (xs ++ (c.hear [x]).2) := by
  have hf : h.table.find? x.datagram.src x.datagram.dst x.header.srcPort x.header.dstPort =
      some k := by
    have htuple : FourTuple.ofSegment x.datagram.src x.datagram.dst x.header.srcPort
        x.header.dstPort = c.tuple := by
      show FourTuple.ofSegment x.speaker.tuple.localAddr x.speaker.tuple.remoteAddr
        x.speaker.tuple.localPort x.speaker.tuple.remotePort = c.tuple
      rw [hx.tuple]
      rfl
    unfold ConnectionTable.find?
    rw [htuple]
    exact hs.found
  have hs₁ : Stands (h.note (.received x.datagram.src x.datagram.dst x.header)) k c xs :=
    ⟨hs.live, hs.found, hs.policy, hs.network, hs.wellFormed, hs.one⟩
  obtain ⟨h', he, hs'⟩ := hs₁.feed ((Event.ofHeader x.header).filterMap id)
  refine ⟨h', (Host.receive_found (hx.parse _) hf).trans he, ?_⟩
  simpa [Connection.hear] using hs'

/-- Datagrams from the other side are printed and received, one after the other. -/
theorem pass (hs : Stands h k c xs) {ys : List Utterance} (hys : ∀ y ∈ ys, y.On c.tuple.mirror)
    (ls : List Line) :
    ∃ h', Loopback.pass h ls (ys.map Utterance.datagram) = .ok (h', ls ++ ys.map Utterance.line) ∧
      Stands h' k (c.hear ys).1 (xs ++ (c.hear ys).2) := by
  induction ys generalizing h c xs ls with
  | nil => exact ⟨h, by simp [Loopback.pass], by simpa [Connection.hear] using hs⟩
  | cons y ys ih =>
    obtain ⟨hy, hys⟩ := List.forall_mem_cons.mp hys
    obtain ⟨h₁, hr, hs₁⟩ := hs.receive hy
    have htuple : (c.hear [y]).1.tuple = c.tuple := Connection.tuple_heed c _
    rw [← htuple] at hys
    obtain ⟨h', he, hs'⟩ := ih hs₁ hys (ls ++ [y.line])
    refine ⟨h', ?_, by simpa [Connection.hear] using hs'⟩
    rw [List.append_assoc] at he
    rw [List.map_cons, Loopback.pass, hy.header_datagram]
    dsimp only
    rw [hr]
    exact he

/-- The outbox is emptied. -/
theorem drain (hs : Stands h k c xs) :
    ∃ h', Loopback.drain h = (xs.map Utterance.datagram, h') ∧ Stands h' k c [] := by
  have hsent : h.link.network.sent = xs.map Utterance.datagram := by rw [hs.network]
  refine ⟨{ h with link := { h.link with network := { h.link.network with sent := [] } } },
    Prod.ext hsent rfl, hs.live, hs.found, hs.policy, ?_, hs.wellFormed, hs.one⟩
  show { h.link.network with sent := [] } = _
  rw [hs.network]
  rfl

end Stands

end Loopback

end TcpEngine
