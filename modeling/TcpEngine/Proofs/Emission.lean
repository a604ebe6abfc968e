import TcpEngine.Network.Outbox
import TcpEngine.Proofs.Transitions

/-!
# What a host emits

The datagrams that a host with an outbox has emitted are those that its outbox keeps. A segment that
is handed over joins them, or is refused (`Link.Handed.emitted`). A transition of a record leaves
everything as it was, or it is a turn (`Link.Turn`): it says what the record has become, and which
datagrams were emitted on the way. What every turn keeps, a received segment keeps
(`Link.Fed.invariant`).
-/

namespace TcpEngine

namespace Connection

/-- The header of a segment that was sent. -/
theorem parse_segment {c : Connection} {f : Flags} {p : Octets}
    {ends : Option (Address × Address)} {q : Header}
    (h : Header.parse (c.segment f p) ends = .ok (.ok q)) :
    q.flags = f ∧ q.seqNumber = c.sendNext := by
  have hr := (Header.parse_eq_ok h).1
  rw [segment, Header.read_segment] at hr
  cases hr
  exact ⟨rfl, rfl⟩

end Connection

/-- The datagram carries one of the replies `fs` of the record `c`. If that is the first of them, it
has the sequence number that was next. -/
def Datagram.IsReply (d : Datagram) (c : Connection) (fs : List Flags) : Prop :=
  ∃ (before : List Flags) (f : Flags) (rest : List Flags) (c₁ : Connection),
    fs = before ++ f :: rest ∧ d.payload = c₁.segment f [] ∧
      (before = [] → c₁.sendNext = c.sendNext)

section

variable {d : Datagram} {c : Connection} {fs : List Flags} {q : Header}

theorem Datagram.IsReply.flags_mem (h : d.IsReply c fs)
    (hq : Header.parse d.payload none = .ok (.ok q)) : q.flags ∈ fs := by
  obtain ⟨before, f, rest, c₁, rfl, hp, -⟩ := h
  rw [hp] at hq
  rw [(Connection.parse_segment hq).1]
  exact List.mem_append_right _ (List.mem_cons_self ..)

theorem Datagram.IsReply.seqNumber {f : Flags} (h : d.IsReply c [f])
    (hq : Header.parse d.payload none = .ok (.ok q)) : q.seqNumber = c.sendNext := by
  obtain ⟨before, g, rest, c₁, hfs, hp, hb⟩ := h
  rw [hp] at hq
  rw [(Connection.parse_segment hq).2]
  cases before with
  | nil => exact hb rfl
  | cons b bs => simp at hfs

end

namespace Link

variable {α : Type} {l l' : Link α Outbox} {c c' : Connection}

theorem Handed.emitted {f : Flags} {p : Octets} {r : Option Refusal} (h : l.Handed c f p r l') :
    l'.network.sent = l.network.sent ∨
      ∃ d, d.payload = c.segment f p ∧ l'.network.sent = l.network.sent ++ [d] := by
  rw [h.network]
  show (Outbox.deliver ..).2.sent = _ ∨ ∃ d, _ ∧ (Outbox.deliver ..).2.sent = _
  unfold Outbox.deliver
  split
  · exact .inl rfl
  · exact .inr ⟨_, rfl, rfl⟩

theorem Handed.kept {f : Flags} {p : Octets} {r : Option Refusal} (h : l.Handed c f p r l') :
    l.network.sent ⊆ l'.network.sent := by
  intro d hd
  obtain he | ⟨d', -, he⟩ := h.emitted
  · rwa [he]
  · rw [he]
    exact List.mem_append_left _ hd

theorem Replied.kept {fs : List Flags} {r : Option Refusal} (h : l.Replied c fs r c' l') :
    l.network.sent ⊆ l'.network.sent := by
  induction h with
  | nil _ _ => exact fun _ hd => hd
  | cons hh _ ih => exact fun _ hd => ih (hh.kept hd)

theorem Replied.emitted {fs : List Flags} {r : Option Refusal} (h : l.Replied c fs r c' l') :
    ∀ d ∈ l'.network.sent, d ∈ l.network.sent ∨ d.IsReply c fs := by
  induction h with
  | nil _ _ => exact fun d hd => .inl hd
  | @cons l l₁ l' c c' f fs _ _ hh _ ih =>
    intro d hd
    obtain hd₁ | ⟨before, g, rest, c₁, hfs, hp, -⟩ := ih d hd
    · obtain he | ⟨d', hp, he⟩ := hh.emitted
      · exact .inl (by rwa [← he])
      · rw [he, List.mem_append, List.mem_singleton] at hd₁
        obtain hd₁ | rfl := hd₁
        · exact .inl hd₁
        · exact .inr ⟨[], f, fs, c, rfl, hp, fun _ => rfl⟩
    · refine .inr ⟨f :: before, g, rest, c₁, by rw [hfs]; rfl, hp, ?_⟩
      intro hnil
      cases hnil

/-- The record `c` has begun its transition `t` on an event, and some of the replies were emitted.
-/
structure Turn (e : Event) (t : Transition) (c : Connection) (sent : List Datagram)
    (c' : Connection) (sent' : List Datagram) : Prop where
  next : c.state.next? e = some t
  state : c'.state = t.during ∨ c'.state = t.after
  recvNext : c'.recvNext = t.acknowledge.getD c.recvNext
  fixed : c'.fixed = c.fixed
  kept : sent ⊆ sent'
  emitted : ∀ d ∈ sent', d ∈ sent ∨ d.IsReply c t.replies

/-- A turn leads forward. -/
theorem Turn.rank_lt {e : Event} {t : Transition} {sent sent' : List Datagram}
    (h : Turn e t c sent c' sent') : c.state.rank < c'.state.rank := by
  obtain ⟨hlt, hle⟩ := State.rank_next? h.next
  obtain hs | hs := h.state
  · rw [hs]; exact hlt
  · rw [hs]; exact Nat.lt_of_lt_of_le hlt hle

/-- A turn follows one of the rows of the transition table. -/
theorem Turn.rows {e : Event} {t : Transition} {sent sent' : List Datagram}
    (h : Turn e t c sent c' sent') :
    (e = .activeOpen ∧ c.state = .closed ∧ c'.state = .synSent ∧ c'.recvNext = c.recvNext ∧
      t.replies = [.SYN]) ∨
    (e = .passiveOpen ∧ c.state = .closed ∧ c'.state = .listen ∧ t.replies = []) ∨
    (∃ s, e = .syn s ∧ c.state = .listen ∧ c'.state = .synReceived ∧ c'.recvNext = s.add 1) ∨
    (e = .ack ∧ (c.state = .synSent ∨ c.state = .synReceived) ∧ c'.state = .established ∧
      c'.recvNext = c.recvNext ∧ t.replies = []) ∨
    ∃ s, e = .fin s ∧ c.state = .established ∧ (c'.state = .closeWait ∨ c'.state = .lastAck) ∧
      c'.recvNext = s.add 1 ∧ t.replies = [.ACK, .FIN ||| .ACK] := by
  obtain ⟨hn, hs, hr, -, -, -⟩ := h
  cases hc : c.state <;> rw [hc] at hn <;> cases e <;> cases hn
  · exact .inl ⟨rfl, rfl, or_self_iff.mp hs, hr, rfl⟩
  · exact .inr (.inl ⟨rfl, rfl, or_self_iff.mp hs, rfl⟩)
  · exact .inr (.inr (.inl ⟨_, rfl, rfl, or_self_iff.mp hs, hr⟩))
  · exact .inr (.inr (.inr (.inl ⟨rfl, .inl rfl, or_self_iff.mp hs, hr, rfl⟩)))
  · exact .inr (.inr (.inr (.inl ⟨rfl, .inr rfl, or_self_iff.mp hs, hr, rfl⟩)))
  · exact .inr (.inr (.inr (.inr ⟨_, rfl, rfl, hs, hr, rfl⟩)))

theorem Carried.turn {e : Event} {t : Transition} {a : Except Error Unit}
    (hn : c.state.next? e = some t) (h : l.Carried c e t a c' l') :
    (c' = c ∧ l'.network = l.network) ∨ Turn e t c l.network.sent c' l'.network.sent := by
  cases h with
  | completed hr =>
    refine .inr ⟨hn, .inr rfl, hr.recvNext, hr.fixed, ?_, ?_⟩
    · rw [network_settle]
      exact hr.kept
    · rw [network_settle]
      exact hr.emitted
  | undone _ hu => exact .inl ⟨rfl, hu.network⟩
  | halted hfs _ hr hu =>
    refine .inr ⟨hn, .inl hr.state, hr.recvNext, hr.fixed, ?_, ?_⟩
    · rw [hu.network]
      exact hr.kept
    · rw [hu.network]
      intro d hd
      obtain hd | ⟨before, f, rest, c₁, hs, hp, hb⟩ := hr.emitted d hd
      · exact .inl hd
      · exact .inr ⟨before, f, rest ++ _, c₁, by rw [hfs, hs, List.append_assoc]; rfl, hp, hb⟩

/-- What every turn on one of the events keeps, they keep together. -/
theorem Fed.invariant {P : Connection → List Datagram → Prop} {r : Option Refusal}
    {es : List Event} {a : Except Error Unit} (h : l.Fed c r es a c' l')
    (step : ∀ e ∈ es, ∀ t c sent c' sent', P c sent → Turn e t c sent c' sent' → P c' sent')
    (hp : P c l.network.sent) : P c' l'.network.sent := by
  induction h with
  | nil _ _ _ => exact hp
  | ignored _ _ ih => exact ih (fun e he => step e (List.mem_cons_of_mem _ he)) hp
  | carried hn hc _ ih =>
    refine ih (fun e he => step e (List.mem_cons_of_mem _ he)) ?_
    obtain ⟨rfl, hnet⟩ | ht := hc.turn hn
    · rwa [hnet]
    · exact step _ (List.mem_cons_self ..) _ _ _ _ _ hp ht
  | stopped hn hc =>
    obtain ⟨rfl, hnet⟩ | ht := hc.turn hn
    · rwa [hnet]
    · exact step _ (List.mem_cons_self ..) _ _ _ _ _ hp ht

end Link

end TcpEngine
