import TcpEngine.Proofs.SequenceSpace

/-!
# The acknowledgment of a FIN

A record that consumes a FIN expects the number behind the sequence number of the segment from then
on, and acknowledges it with every reply (`Host.fin_acknowledged`). This is the number behind the
FIN if the segment has neither a payload nor a SYN. Otherwise the FIN lies further on
(`Host.fin_behind_payload`).

* `Link.Answers`: segments were handed over that acknowledge a number. A transition answers with the
  number that it has taken over (`Link.Carried.answers`).
* `Link.Carried.received`, `Link.Carried.received_halted`: a transition on an event of a segment
  brings the record closer to the FIN, or it was the one on the FIN.
* `Link.Fed.consumed`: the events of a segment, up to the FIN and beyond.
-/

namespace TcpEngine

/-- The flags of the segment in a datagram and the number that it acknowledges. -/
def Datagram.acknowledges? (d : Datagram) : Option (Flags × SeqNumber) :=
  d.header?.map fun q => (q.flags, q.ackNumber)

/-! ## Rows of received events -/

/-- An event that a segment with the sequence number `s` can bring. -/
def Event.Received (e : Event) (s : SeqNumber) : Prop := e = .syn s ∨ e = .ack ∨ e = .fin s

theorem Event.received_ofHeader {q : Header} {e : Event}
    (he : e ∈ (Event.ofHeader q).filterMap id) : e.Received q.seqNumber := by
  obtain ⟨-, rfl⟩ | ⟨-, rfl⟩ | ⟨-, rfl⟩ := Event.mem_ofHeader.mp he
  · exact .inl rfl
  · exact .inr (.inl rfl)
  · exact .inr (.inr rfl)

namespace State

/-- The rows of the transition table for received events. -/
theorem next?_received {x : State} {e : Event} {t : Transition} {s : SeqNumber}
    (he : e.Received s) (h : x.next? e = some t) :
    (x = .listen ∧ t = ⟨.synReceived, some (s.add 1), [.SYN ||| .ACK], .synReceived⟩) ∨
    ((x = .synSent ∨ x = .synReceived) ∧ t = .to .established) ∨
    (x = .established ∧ e = .fin s ∧
      t = ⟨.closeWait, some (s.add 1), [.ACK, .FIN ||| .ACK], .lastAck⟩) := by
  obtain rfl | rfl | rfl := he <;> cases x <;> cases h
  · exact .inl ⟨rfl, rfl⟩
  · exact .inr (.inl ⟨.inl rfl, rfl⟩)
  · exact .inr (.inl ⟨.inr rfl, rfl⟩)
  · exact .inr (.inr ⟨rfl, rfl, rfl⟩)

/-- After a FIN all events are ignored. -/
theorem next?_closing {x : State} (h : 4 ≤ x.rank) (e : Event) : x.next? e = none := by
  cases x <;> first | rfl | exact absurd h (by decide)

/-- The replies to a segment that takes a record from the state `x` through ESTABLISHED to the state
`y`. In LISTEN the SYN is answered first. The last reply is missing if the record is held up in
CLOSE-WAIT. -/
def finReplies (x y : State) : List Flags :=
  (if x = .listen then [.SYN ||| .ACK] else []) ++
    if y = .lastAck then [.ACK, .FIN ||| .ACK] else [.ACK]

end State

/-! ## Answers -/

namespace Link

variable {α ν : Type}

/-- Segments with the flags `fs` were handed over in this order, and all of them acknowledge `n`. -/
def Answers (l : Link α (Recorder ν)) (n : SeqNumber) (fs : List Flags)
    (l' : Link α (Recorder ν)) : Prop :=
  ∃ ds, l'.network.handed = l.network.handed ++ ds ∧
    ds.map Datagram.acknowledges? = fs.map fun f => some (f, n)

variable {l l₁ l' : Link α (Recorder ν)} {c c' : Connection} {n : SeqNumber} {fs gs : List Flags}

theorem Answers.silent (h : l'.network = l.network) : l.Answers n [] l' :=
  ⟨[], by rw [h, List.append_nil], rfl⟩

theorem Answers.append (h : l.Answers n fs l₁) (h' : l₁.Answers n gs l') :
    l.Answers n (fs ++ gs) l' := by
  obtain ⟨ds, hds, hfs⟩ := h
  obtain ⟨ds', hds', hgs⟩ := h'
  exact ⟨ds ++ ds', by rw [hds', hds, List.append_assoc],
    by rw [List.map_append, List.map_append, hfs, hgs]⟩

/-- Nothing else was handed over before and behind. -/
theorem Answers.congr {l₀ l₂ : Link α (Recorder ν)} (h : l.Answers n fs l₁)
    (hl : l.network = l₀.network) (hl' : l₂.network = l₁.network) : l₀.Answers n fs l₂ := by
  obtain ⟨ds, hds, hfs⟩ := h
  exact ⟨ds, by rw [hl', hds, hl], hfs⟩

variable [Network ν]

theorem Handed.answers {f : Flags} {p : Octets} {r : Option Refusal} (h : l.Handed c f p r l') :
    l.Answers c.recvNext [f] l' := by
  refine ⟨_, h.handed, ?_⟩
  simp only [List.map_cons, List.map_nil, Datagram.acknowledges?, Datagram.header?,
    Connection.segment, Header.read_segment]
  rfl

theorem Replied.answers {r : Option Refusal} (h : l.Replied c fs r c' l') :
    l.Answers c.recvNext fs l' := by
  induction h with
  | nil _ _ => exact .silent rfl
  | cons hh _ ih => exact hh.answers.append ih

/-! ## Transitions on received events -/

section

variable {e : Event} {t : Transition} {s : SeqNumber} {r : Option Refusal}

/-- A transition that is completed has answered with the number that was next to expect then. -/
theorem Carried.answers (h : l.Carried c e t (Host.answerOf r) c' l') :
    c'.state = t.after ∧ c'.recvNext = (c.step t).recvNext ∧
      l.Answers (c.step t).recvNext t.replies l' := by
  obtain ⟨c₁, l₁, hr, rfl, rfl⟩ := h.completed_cases
  exact ⟨rfl, hr.recvNext, hr.answers.congr rfl (network_settle ..)⟩

/-- So has one that is cut off behind the first reply. -/
theorem Carried.answers_halted (h : l.Carried c e t (.error .noMemory) c' l') (hne : c' ≠ c) :
    ∃ sent f rest, t.replies = sent ++ f :: rest ∧ sent ≠ [] ∧ c'.state = t.during ∧
      c'.recvNext = (c.step t).recvNext ∧ l.Answers (c.step t).recvNext sent l' := by
  obtain ⟨_, _, -, rfl, -⟩ | ⟨sent, f, rest, r, l₁, hfs, hsent, hr, hu⟩ := h.noMemory_cases
  · exact absurd rfl hne
  · exact ⟨sent, f, rest, hfs, hsent, hr.state, hr.recvNext, hr.answers.congr rfl hu.network⟩

/-- A transition on a received event leaves the record open, with the rest of the replies to come,
or it was the one on a FIN. -/
theorem Carried.received (h : l.Carried c e t (Host.answerOf r) c' l')
    (hn : c.state.next? e = some t) (he : e.Received s) :
    l.Answers (s.add 1) t.replies l' ∧
      ((c'.state.rank ≤ 3 ∧
          ∀ y, c.state.finReplies y = t.replies ++ c'.state.finReplies y) ∨
        (e = .fin s ∧ 4 ≤ c'.state.rank ∧ c'.recvNext = s.add 1 ∧
          c.state.finReplies c'.state = t.replies)) := by
  obtain ⟨hstate, hrecv, hanswers⟩ := h.answers
  obtain ⟨hx, rfl⟩ | ⟨hx, rfl⟩ | ⟨hx, rfl, rfl⟩ := State.next?_received he hn
  · refine ⟨hanswers, .inl ?_⟩
    rw [hstate, hx]
    exact ⟨show State.synReceived.rank ≤ 3 by decide, fun _ => rfl⟩
  · -- No number is acknowledged, as there are no replies.
    refine ⟨hanswers, .inl ?_⟩
    rw [hstate]
    obtain hx | hx := hx <;> rw [hx] <;> exact ⟨by decide, fun _ => rfl⟩
  · refine ⟨hanswers, .inr ⟨rfl, ?_, hrecv, ?_⟩⟩
    · rw [hstate]
      exact show 4 ≤ State.lastAck.rank by decide
    · rw [hstate, hx]
      rfl

/-- Only a transition on a FIN is cut off behind the first reply. -/
theorem Carried.received_halted (h : l.Carried c e t (.error .noMemory) c' l')
    (hn : c.state.next? e = some t) (he : e.Received s) (hne : c' ≠ c) :
    e = .fin s ∧ c'.recvNext = s.add 1 ∧
      l.Answers (s.add 1) (c.state.finReplies c'.state) l' := by
  obtain ⟨sent, f, rest, hfs, hsent, hstate, hrecv, hanswers⟩ := h.answers_halted hne
  have htwo : 2 ≤ t.replies.length := by
    have hpos := List.length_pos_iff.mpr hsent
    rw [hfs, List.length_append, List.length_cons]
    omega
  obtain ⟨-, rfl⟩ | ⟨-, rfl⟩ | ⟨hx, rfl, rfl⟩ := State.next?_received he hn
  · exact absurd htwo (show ¬ 2 ≤ 1 by decide)
  · exact absurd htwo (show ¬ 2 ≤ 0 by decide)
  · obtain ⟨g, sent, rfl⟩ := List.exists_cons_of_ne_nil hsent
    obtain ⟨rfl, hrest⟩ := List.cons.inj hfs
    obtain ⟨rfl, -⟩ | ⟨-, hnil⟩ := List.singleton_eq_append_iff.mp hrest
    · rw [hx, hstate]
      exact ⟨rfl, hrecv, hanswers⟩
    · cases hnil

/-! ## The events of a segment -/

/-- After a FIN nothing happens. -/
theorem Fed.closing {es : List Event} {a : Except Error Unit} (h : l.Fed c r es a c' l')
    (hc : 4 ≤ c.state.rank) : c' = c ∧ l'.network = l.network := by
  induction h with
  | nil _ _ _ => exact ⟨rfl, rfl⟩
  | ignored _ _ ih => exact ih hc
  | carried hn _ _ _ => rw [State.next?_closing hc] at hn; cases hn
  | stopped hn _ => rw [State.next?_closing hc] at hn; cases hn

/-- The events of a segment have brought a record through ESTABLISHED. -/
theorem Fed.consumed {es : List Event} {a : Except Error Unit} (h : l.Fed c r es a c' l')
    (hes : ∀ e ∈ es, e.Received s) (hc : c.state.rank ≤ 3) (hc' : 4 ≤ c'.state.rank) :
    .fin s ∈ es ∧ c'.recvNext = s.add 1 ∧
      l.Answers (s.add 1) (c.state.finReplies c'.state) l' := by
  induction h with
  | nil _ _ _ => omega
  | ignored _ _ ih =>
    obtain ⟨hfin, hrecv, hanswers⟩ := ih (fun e he => hes e (List.mem_cons_of_mem _ he)) hc hc'
    exact ⟨List.mem_cons_of_mem _ hfin, hrecv, hanswers⟩
  | carried hn hcarried hfed ih =>
    obtain ⟨hanswers, ⟨hopen, hreplies⟩ | ⟨rfl, hclosing, hrecv, hreplies⟩⟩ :=
      hcarried.received hn (hes _ (List.mem_cons_self ..))
    · obtain ⟨hfin, hrecv, hanswers'⟩ :=
        ih (fun e he => hes e (List.mem_cons_of_mem _ he)) hopen hc'
      rw [hreplies]
      exact ⟨List.mem_cons_of_mem _ hfin, hrecv, hanswers.append hanswers'⟩
    · obtain ⟨rfl, hnet⟩ := hfed.closing hclosing
      rw [hreplies]
      exact ⟨List.mem_cons_self .., hrecv, hanswers.congr rfl hnet⟩
  | stopped hn hcarried =>
    obtain ⟨rfl, hrecv, hanswers⟩ := hcarried.received_halted hn
      (hes _ (List.mem_cons_self ..)) (by rintro rfl; omega)
    exact ⟨List.mem_cons_self .., hrecv, hanswers⟩

end

end Link

/-! ## Receiving a FIN -/

/-- One place behind the sequence number is behind the whole segment if and only if this has nothing
but one flag. -/
theorem Header.add_sequenceLen_iff {q : Header} (hfin : q.flags.fin = true) :
    q.seqNumber.add 1 = q.seqNumber.add q.sequenceLen ↔
      q.payloadLen.toNat = 0 ∧ q.flags.syn = false := by
  have hlen := q.payloadLen.toNat_lt
  rw [SeqNumber.add_eq_add_iff, sequenceLen, Flags.sequenceLen, hfin]
  cases q.flags.syn with
  | false =>
    simp only [UInt32.size, Bool.toNat_true, Bool.toNat_false, and_true]
    omega
  | true =>
    simp only [UInt32.size, Bool.toNat_true, Bool.true_eq_false, and_false, iff_false]
    omega

namespace Host

variable {α ν : Type} [Arena α] [Network ν]

/-- A segment that takes a record to CLOSE-WAIT or LAST-ACK has a FIN. The record expects the number
behind the sequence number of the segment then, and every reply acknowledges this number: the ACK,
the FIN with ACK behind it, and before them the SYN with ACK if the record was in LISTEN. It is the
number behind everything that the segment takes in the sequence of octets if and only if there is no
payload and no SYN. -/
theorem fin_acknowledged (h : Host α (Recorder ν)) (segment : Octets) (src dst : Address) :
    ∃ a h', h.receive segment src dst = .ok (a, h') ∧ ∀ k c c', h.get? k = some c →
      h'.get? k = some c' → c.state ∉ [.closeWait, .lastAck] → c'.state ∈ [.closeWait, .lastAck] →
      ∃ q, Header.parse segment (h.table.policy.ends src dst) = .ok (.ok q) ∧
        q.flags.fin = true ∧ c'.recvNext = q.seqNumber.add 1 ∧
        h.link.Answers c'.recvNext (c.state.finReplies c'.state) h'.link ∧
        (c'.recvNext = q.seqNumber.add q.sequenceLen ↔
          segment.length = Segment.headerLen ∧ q.flags.syn = false) := by
  -- A record that is as before has not come to these states.
  have hsame {h' : Host α (Recorder ν)} {k : Key} {c c' : Connection} {P : Prop}
      (hk' : h'.get? k = h.get? k) (hk : h.get? k = some c) (hk₁ : h'.get? k = some c')
      (hc : c.state ∉ [.closeWait, .lastAck]) (hc' : c'.state ∈ [.closeWait, .lastAck]) : P := by
    rw [hk', hk] at hk₁
    cases hk₁
    exact absurd hc' hc
  obtain ⟨r, he⟩ | ⟨q, -, he⟩ | ⟨q, k, -, -, a, -, he⟩ |
    ⟨q, k₀, c₀, hq, -, hk₀, a, c₁, l', hfed, he⟩ := h.receive_cases segment src dst
  · exact ⟨_, _, he, fun k c c' hk hk' => hsame rfl hk hk'⟩
  · exact ⟨_, _, he, fun k c c' hk hk' => hsame rfl hk hk'⟩
  · exact ⟨_, _, he, fun k c c' hk hk' => hsame rfl hk hk'⟩
  · refine ⟨_, _, he, fun k c c' hk hk' hc hc' => ?_⟩
    by_cases hkk : k = k₀
    · subst hkk
      rw [get?_hold_self hk₀] at hk'
      cases hk'
      cases hk₀.symm.trans hk
      have hle : c₀.state.rank ≤ 3 := Nat.le_of_not_lt fun hlt => hc (State.four_le_rank.mp hlt)
      obtain ⟨hmem, hrecv, hanswers⟩ := hfed.consumed
        (fun e he => Event.received_ofHeader he) hle (State.four_le_rank.mpr hc')
      have hfin : q.flags.fin = true := by
        simpa using Event.mem_ofHeader.mp hmem
      have hlen := Header.payloadLen_parse hq
      refine ⟨q, hq, hfin, hrecv, by rw [hrecv]; exact hanswers, ?_⟩
      rw [hrecv, Header.add_sequenceLen_iff hfin]
      exact and_congr_left fun _ => by omega
    · exact hsame (by rw [get?_hold hk₀, if_neg hkk]) hk hk' hc hc'

/-- An open connection is closed by the other side with a last payload: the FIN is behind the five
octets of the payload, and what is acknowledged is the first of them. -/
theorem fin_behind_payload : ∃ log h h' c q, (start { address := ⟨10, 0, 0, 1⟩ } ({} : Unbounded)
      ({ layer := { address := ⟨10, 0, 0, 1⟩ } } : Recorder Outbox)).run
      [.create ⟨10, 0, 0, 2⟩ 80 5000, .connect ⟨0, 1⟩,
        .receive (Header.segment ⟨80, 5000, ⟨999⟩, ⟨1⟩, .SYN ||| .ACK, 0, 0⟩ []
          ⟨10, 0, 0, 2⟩ ⟨10, 0, 0, 1⟩) ⟨10, 0, 0, 2⟩ ⟨10, 0, 0, 1⟩] = .ok (log, h) ∧
    h.receive (Header.segment ⟨80, 5000, ⟨1000⟩, ⟨1⟩, .ACK ||| .FIN, 0, 5⟩ [104, 101, 108, 108, 111]
      ⟨10, 0, 0, 2⟩ ⟨10, 0, 0, 1⟩) ⟨10, 0, 0, 2⟩ ⟨10, 0, 0, 1⟩ = .ok (.ok (), h') ∧
    Header.parse (Header.segment ⟨80, 5000, ⟨1000⟩, ⟨1⟩, .ACK ||| .FIN, 0, 5⟩
      [104, 101, 108, 108, 111] ⟨10, 0, 0, 2⟩ ⟨10, 0, 0, 1⟩)
      (some (⟨10, 0, 0, 2⟩, ⟨10, 0, 0, 1⟩)) = .ok (.ok q) ∧
    (h.get? ⟨0, 1⟩).map (·.state) = some .established ∧ h'.get? ⟨0, 1⟩ = some c ∧
    c.state = .lastAck ∧ q.seqNumber.add q.sequenceLen = ⟨1006⟩ ∧ c.recvNext = ⟨1001⟩ ∧
    h'.link.network.handed.map Datagram.acknowledges? =
      [some (.SYN, ⟨0⟩), some (.ACK, ⟨1001⟩), some (.FIN ||| .ACK, ⟨1001⟩)] :=
  ⟨_, _, _, _, _, rfl, rfl, rfl, rfl, rfl, rfl, rfl, rfl, rfl⟩

end Host

end TcpEngine
