import TcpEngine.Proofs.Emission
import TcpEngine.Proofs.Run

/-!
# The agreement of two hosts

A caller and a callee have a record for each other. The caller opens its record actively, the callee
waits. In between everything can go wrong that can: datagrams are lost, repeated and passed out of
order, the network layers refuse segments, and the arenas have no buffers.

* `Caller`, `Callee`: what a side has emitted says how far it has come. A datagram of the caller is
  its SYN, or has no SYN and comes from an established record; one of the callee comes from a record
  that has received a SYN.
* `Connection.Informed`: what a record has come to know of the other side.
* `Pair.Sound`: both sides together. Every move keeps it (`Pair.Sound.step`), because the datagrams
  of either side tell the other the truth (`Pair.Sound.tells_caller`, `Pair.Sound.tells_callee`).
-/

namespace TcpEngine

/-! ## Two hosts -/

/-- Two hosts, each with the key of its record for the other. -/
structure Pair (α β : Type) where
  caller : Host α Outbox
  callee : Host β Outbox
  callerKey : Key
  calleeKey : Key

/-- What can happen to two hosts. -/
inductive Move (α β : Type) where
  /-- The caller is to open its record. -/
  | connect
  /-- The callee is to wait. -/
  | listen
  /-- The datagram that the caller was the `i`-th to emit reaches the callee. -/
  | toCallee (i : Nat)
  | toCaller (i : Nat)
  /-- The user of the caller sends a segment. -/
  | callerSends (flags : Flags) (payload : Octets)
  | calleeSends (flags : Flags) (payload : Octets)
  /-- The caller finds another arena, and its network layer refuses other segments. -/
  | callerMeets (arena : α) (script : List (Option Refusal)) (failure : Option Refusal)
  | calleeMeets (arena : β) (script : List (Option Refusal)) (failure : Option Refusal)

namespace Host

variable {α : Type}

/-- The host with another arena and another script for its outbox. -/
def meet (h : Host α Outbox) (arena : α) (script : List (Option Refusal))
    (failure : Option Refusal) : Host α Outbox :=
  h.attach arena { h.link.network with script, failure }

variable [Arena α]

/-- Takes in a datagram, if there is one. -/
def hear (h : Host α Outbox) : Option Datagram → Checked (Host α Outbox)
  | none => .ok h
  | some d => do
    let (_, h) ← h.receive d.payload d.src d.dst
    return h

/-- Sends a segment without SYN on the connection `k` if that is in ESTABLISHED. -/
def speak (h : Host α Outbox) (k : Key) (flags : Flags) (payload : Octets) :
    Checked (Host α Outbox) :=
  if (h.get? k).map (·.state) = some .established ∧ flags.syn = false then do
    let (_, h) ← h.send k flags payload
    return h
  else .ok h

end Host

namespace Pair

variable {α β : Type}

/-- Two hosts that have just created their records, if both could. -/
def start (callerConfig calleeConfig : Config) (callerArena : α) (calleeArena : β)
    (callerPort calleePort : UInt16) : Checked (Option (Pair α β)) := do
  let (a, caller) ← (Host.start callerConfig callerArena { address := callerConfig.address }).create
    calleeConfig.address calleePort callerPort
  let (b, callee) ← (Host.start calleeConfig calleeArena { address := calleeConfig.address }).create
    callerConfig.address callerPort calleePort
  match a, b with
  | .ok callerKey, .ok calleeKey => return some { caller, callee, callerKey, calleeKey }
  | _, _ => return none

variable [Arena α] [Arena β]

def step (p : Pair α β) : Move α β → Checked (Pair α β)
  | .connect => do
    let (_, caller) ← p.caller.connect p.callerKey
    return { p with caller }
  | .listen => do
    let (_, callee) ← p.callee.listen p.calleeKey
    return { p with callee }
  | .toCallee i => do
    let callee ← p.callee.hear p.caller.link.network.sent[i]?
    return { p with callee }
  | .toCaller i => do
    let caller ← p.caller.hear p.callee.link.network.sent[i]?
    return { p with caller }
  | .callerSends flags payload => do
    let caller ← p.caller.speak p.callerKey flags payload
    return { p with caller }
  | .calleeSends flags payload => do
    let callee ← p.callee.speak p.calleeKey flags payload
    return { p with callee }
  | .callerMeets arena script failure =>
    .ok { p with caller := p.caller.meet arena script failure }
  | .calleeMeets arena script failure =>
    .ok { p with callee := p.callee.meet arena script failure }

/-- The moves `ms` one after the other. -/
def run (p : Pair α β) (ms : List (Move α β)) : Checked (Pair α β) := ms.foldlM step p

end Pair

/-! ## What a record tells about the other side -/

/-- What a record knows of the other side: `acked` if it is established, that the number it expects
has `opened` while it has not heard a FIN, and that it has `closing` afterwards. -/
structure Connection.Informed (acked : Prop) (opened closing : SeqNumber → Prop) (c : Connection) :
    Prop where
  acked : 3 ≤ c.state.rank → acked
  opened : c.state = .synSent ∨ c.state = .synReceived ∨ c.state = .established →
    opened c.recvNext
  closing : 4 ≤ c.state.rank → closing c.recvNext

/-- What an event has to tell for that. -/
def Event.Tells (acked : Prop) (opened closing : SeqNumber → Prop) : Event → Prop
  | .activeOpen => ∀ n, opened n
  | .passiveOpen => True
  | .syn s => opened (s.add 1)
  | .ack => acked
  | .fin s => closing (s.add 1)

section

variable {acked acked' : Prop} {opened opened' closing closing' : SeqNumber → Prop}
  {e : Event} {t : Transition} {c c' : Connection} {sent sent' : List Datagram}

theorem Connection.Informed.mono (h : c.Informed acked opened closing) (ha : acked → acked')
    (ho : ∀ n, opened n → opened' n) (hc : ∀ n, closing n → closing' n) :
    c.Informed acked' opened' closing' where
  acked hr := ha (h.acked hr)
  opened hs := ho _ (h.opened hs)
  closing hr := hc _ (h.closing hr)

theorem Connection.Informed.turn (h : c.Informed acked opened closing)
    (ht : Link.Turn e t c sent c' sent') (he : e.Tells acked opened closing) :
    c'.Informed acked opened closing := by
  obtain ⟨rfl, hs, hs', hr, -⟩ | ⟨rfl, hs, hs', -⟩ | ⟨s, rfl, hs, hs', hr⟩ |
    ⟨rfl, hs, hs', hr, -⟩ | ⟨s, rfl, hs, hs', hr, -⟩ := ht.rows
  · exact ⟨by simp [hs', State.rank], fun _ => he _, by simp [hs', State.rank]⟩
  · exact ⟨by simp [hs', State.rank], by simp [hs'], by simp [hs', State.rank]⟩
  · exact ⟨by simp [hs', State.rank], fun _ => hr ▸ he, by simp [hs', State.rank]⟩
  · refine ⟨fun _ => he, fun _ => ?_, by simp [hs', State.rank]⟩
    rw [hr]
    exact h.opened (hs.imp_right .inl)
  · refine ⟨fun _ => h.acked (by simp [hs, State.rank]), ?_, fun _ => hr ▸ he⟩
    obtain hs' | hs' := hs' <;> simp [hs']

/-! ## The two sides -/

/-- The record of the caller and the datagrams it has emitted. Before it is established, it emits
nothing but its SYN. -/
structure Caller (c : Connection) (sent : List Datagram) : Prop where
  active : c.state ≠ .listen
  fresh : c.state = .closed → c.sendNext = c.initialSeq
  emitted : ∀ d ∈ sent, ∀ q, Header.parse d.payload none = .ok (.ok q) →
    (q.flags = .SYN ∧ q.seqNumber = c.initialSeq) ∨ (q.flags.syn = false ∧ 3 ≤ c.state.rank)

/-- The record of the callee and the datagrams it has emitted. It emits nothing before it has
received a SYN. -/
def Callee (c : Connection) (sent : List Datagram) : Prop := ∀ d ∈ sent, 2 ≤ c.state.rank

/-- A record has come forward, and its host has emitted more. -/
structure Grown (c : Connection) (sent : List Datagram) (c' : Connection) (sent' : List Datagram) :
    Prop where
  initialSeq : c'.initialSeq = c.initialSeq
  rank : c.state.rank ≤ c'.state.rank
  kept : sent ⊆ sent'

theorem Grown.rfl : Grown c sent c sent := ⟨Eq.refl _, Nat.le_refl _, fun _ h => h⟩

theorem Grown.trans {c₁ : Connection} {sent₁ : List Datagram} (h : Grown c sent c₁ sent₁)
    (h' : Grown c₁ sent₁ c' sent') : Grown c sent c' sent' where
  initialSeq := h'.initialSeq.trans h.initialSeq
  rank := Nat.le_trans h.rank h'.rank
  kept := fun _ hd => h'.kept (h.kept hd)

theorem Grown.turn (ht : Link.Turn e t c sent c' sent') : Grown c sent c' sent' where
  initialSeq := congrArg (fun x => x.2.1) ht.fixed
  rank := Nat.le_of_lt ht.rank_lt
  kept := ht.kept

theorem Caller.turn (h : Caller c sent) (ht : Link.Turn e t c sent c' sent')
    (he : e ≠ .passiveOpen) : Caller c' sent' := by
  have hg := Grown.turn ht
  have hold {d : Datagram} (hd : d ∈ sent) {q : Header}
      (hq : Header.parse d.payload none = .ok (.ok q)) :
      (q.flags = .SYN ∧ q.seqNumber = c'.initialSeq) ∨
        (q.flags.syn = false ∧ 3 ≤ c'.state.rank) := by
    rw [hg.initialSeq]
    exact (h.emitted d hd q hq).imp_right fun hs => ⟨hs.1, Nat.le_trans hs.2 hg.rank⟩
  obtain ⟨-, hs, hs', -, hfs⟩ | ⟨rfl, -⟩ | ⟨s, -, hs, -⟩ | ⟨-, hs, hs', -, hfs⟩ |
    ⟨s, -, hs, hs', -, hfs⟩ := ht.rows
  · refine ⟨by simp [hs'], by simp [hs'], fun d hd q hq => ?_⟩
    obtain hd | hr := ht.emitted d hd
    · exact hold hd hq
    · rw [hfs] at hr
      refine .inl ⟨List.mem_singleton.mp (hr.flags_mem hq), ?_⟩
      rw [hr.seqNumber hq, h.fresh hs, hg.initialSeq]
  · exact absurd rfl he
  · exact absurd hs h.active
  · refine ⟨by simp [hs'], by simp [hs'], fun d hd q hq => ?_⟩
    obtain hd | hr := ht.emitted d hd
    · exact hold hd hq
    · rw [hfs] at hr
      cases hr.flags_mem hq
  · have hrank : 3 ≤ c'.state.rank := by
      obtain hs' | hs' := hs' <;> simp [hs', State.rank]
    refine ⟨?_, ?_, fun d hd q hq => ?_⟩
    · obtain hs' | hs' := hs' <;> simp [hs']
    · obtain hs' | hs' := hs' <;> simp [hs']
    · obtain hd | hr := ht.emitted d hd
      · exact hold hd hq
      · refine .inr ⟨?_, hrank⟩
        rw [hfs] at hr
        have hmem := hr.flags_mem hq
        simp only [List.mem_cons, List.not_mem_nil, or_false] at hmem
        obtain hf | hf := hmem
        · rw [hf]; rfl
        · rw [hf]; rfl

theorem Callee.turn (h : Callee c sent) (ht : Link.Turn e t c sent c' sent')
    (he : e ≠ .activeOpen) : Callee c' sent' := by
  intro d hd
  obtain ⟨rfl, -⟩ | ⟨-, -, -, hfs⟩ | ⟨s, -, -, hs', -⟩ | ⟨-, -, hs', -⟩ | ⟨s, -, -, hs', -⟩ :=
    ht.rows
  · exact absurd rfl he
  · obtain hd | hr := ht.emitted d hd
    · exact Nat.le_trans (h d hd) (Nat.le_of_lt ht.rank_lt)
    · obtain ⟨before, f, rest, c₁, hb, -⟩ := hr
      rw [hfs] at hb
      simp at hb
  · simp [hs', State.rank]
  · simp [hs', State.rank]
  · obtain hs' | hs' := hs' <;> simp [hs', State.rank]

/-! ### What the user sends -/

variable {α : Type} {l l' : Link α Outbox} {f : Flags} {p : Octets} {r : Option Refusal}

theorem Connection.Informed.advance (h : c.Informed acked opened closing) (f : Flags)
    (p : Octets) : (c.advance f p).Informed acked opened closing :=
  ⟨h.acked, h.opened, h.closing⟩

theorem Grown.handed (h : l.Handed c f p r l') :
    Grown c l.network.sent (c.advance f p) l'.network.sent :=
  ⟨Eq.refl _, Nat.le_refl _, h.kept⟩

theorem Caller.handed (h : Caller c l.network.sent) (hs : c.state = .established)
    (hf : f.syn = false) (hh : l.Handed c f p r l') : Caller (c.advance f p) l'.network.sent where
  active := h.active
  fresh hc := by
    have hc' : c.state = .closed := hc
    rw [hs] at hc'; cases hc'
  emitted d hd q hq := by
    obtain he | ⟨d', hp, he⟩ := hh.emitted
    · exact h.emitted d (by rwa [← he]) q hq
    · rw [he, List.mem_append, List.mem_singleton] at hd
      obtain hd | rfl := hd
      · exact h.emitted d hd q hq
      · rw [hp] at hq
        rw [(Connection.parse_segment hq).1]
        have hrank : 3 ≤ (c.advance f p).state.rank := by
          simp [Connection.advance, hs, State.rank]
        exact .inr ⟨hf, hrank⟩

theorem Callee.handed (hs : c.state = .established) (sent' : List Datagram) :
    Callee (c.advance f p) sent' := by
  intro _ _
  simp [Connection.advance, hs, State.rank]

end

/-! ## A host with one record -/

namespace Host

variable {α : Type} {h : Host α Outbox} {k : Key} {c : Connection}

/-- The host has the record `c` under the key `k`, and no other. -/
def Lone (h : Host α Outbox) (k : Key) (c : Connection) : Prop :=
  ∀ k', h.get? k' = if k' = k then some c else none

theorem Lone.live (hl : h.Lone k c) : h.get? k = some c := by
  rw [hl k, if_pos rfl]

theorem Lone.hold (hl : h.Lone k c) (c' : Connection) (l : Link α Outbox) :
    (h.hold k c' l).Lone k c' := by
  intro k'
  rw [get?_hold hl.live, hl k']
  split <;> rfl

theorem lone_create {cfg : Config} {arena : α} {network : Outbox} {remoteAddr : Address}
    {remotePort localPort : UInt16}
    (hc : (start cfg arena network).create remoteAddr remotePort localPort = .ok (.ok k, h)) :
    (∃ u, h.Lone k (.new u cfg.initialSeq)) ∧ h.link.network = network := by
  have hw : (start cfg arena network).table.records.WellFormed := SlotMap.empty_wellFormed _
  unfold create at hc
  obtain ⟨-, he⟩ | ⟨-, -, he⟩ | ⟨-, k', m, hm, he⟩ :=
    ConnectionTable.create_cases hw remoteAddr remotePort localPort
  · rw [he] at hc; cases hc
  · rw [he] at hc; cases hc
  · rw [he] at hc
    cases hc
    have hget := ConnectionTable.get?_enroll hm
      ((start cfg arena network).table.tupleTo remoteAddr remotePort localPort)
    exact ⟨⟨_, hget⟩, rfl⟩

variable [Arena α] {P : Connection → List Datagram → Prop}

omit [Arena α] in
/-- What the turn of opening keeps, opening keeps. -/
theorem Lone.opened (hl : h.Lone k c) (hp : P c h.link.network.sent) {e : Event}
    {a : Except Error Unit} {c' : Connection} {l' : Link α Outbox}
    (ho : h.link.Opened c e a c' l')
    (step : ∀ t c sent c' sent', P c sent → Link.Turn e t c sent c' sent' → P c' sent') :
    (h.hold k c' l').Lone k c' ∧ P c' (h.hold k c' l').link.network.sent := by
  refine ⟨hl.hold _ _, ?_⟩
  cases ho with
  | notPermitted _ => exact hp
  | carried hn hc =>
    obtain ⟨rfl, hnet⟩ | ht := hc.turn hn
    · rw [link_hold, hnet]
      exact hp
    · exact step _ _ _ _ _ hp ht

/-- What the turns on the events of a datagram keep, receiving it keeps. -/
theorem Lone.hear (hl : h.Lone k c) (hp : P c h.link.network.sent) (d? : Option Datagram)
    (step : ∀ d q, d? = some d → Header.parse d.payload none = .ok (.ok q) →
      ∀ e ∈ (Event.ofHeader q).filterMap id, ∀ t c sent c' sent', P c sent →
        Link.Turn e t c sent c' sent' → P c' sent') :
    ∃ h' c', h.hear d? = .ok h' ∧ h'.Lone k c' ∧ P c' h'.link.network.sent := by
  cases d? with
  | none => exact ⟨h, c, rfl, hl, hp⟩
  | some d =>
    unfold Host.hear
    dsimp only
    obtain ⟨r, he⟩ | ⟨q, -, he⟩ | ⟨q, k', -, -, a, -, he⟩ |
      ⟨q, k', c₀, hq, -, hk, a, c', l', hf, he⟩ := h.receive_cases d.payload d.src d.dst
    · rw [he]; exact ⟨_, c, rfl, hl, hp⟩
    · rw [he]; exact ⟨_, c, rfl, hl, hp⟩
    · rw [he]; exact ⟨_, c, rfl, hl, hp⟩
    · rw [hl k'] at hk
      split at hk
      · rename_i hkk
        subst hkk
        cases hk
        rw [he]
        refine ⟨_, c', rfl, hl.hold _ _, ?_⟩
        exact hf.invariant (step d q rfl (Header.parse_eq_ok hq).2) hp
      · cases hk

/-- What a segment without SYN keeps in ESTABLISHED, sending keeps. -/
theorem Lone.speak (hl : h.Lone k c) (hp : P c h.link.network.sent) {f : Flags} (p : Octets)
    (step : c.state = .established → f.syn = false → ∀ r l', h.link.Handed c f p r l' →
      P (c.advance f p) l'.network.sent) :
    ∃ h' c', h.speak k f p = .ok h' ∧ h'.Lone k c' ∧ P c' h'.link.network.sent := by
  unfold Host.speak
  rw [hl.live]
  split
  · rename_i hs
    obtain ⟨hs, hf⟩ := hs
    obtain ⟨a, c', l', hsent, he⟩ := send_cases hl.live f p
    rw [he]
    refine ⟨_, c', rfl, hl.hold _ _, ?_⟩
    cases hsent with
    | tooLarge _ => exact hp
    | unbuilt _ hu =>
      rw [link_hold, hu.network]
      exact hp
    | handed _ hh => exact step (by simpa using hs) hf _ l' hh
  · exact ⟨h, c, rfl, hl, hp⟩

end Host

/-! ## What both know -/

/-- `n` is the number behind the sequence number of a segment with FIN. -/
def BehindFin (sent : List Datagram) (n : SeqNumber) : Prop :=
  ∃ d ∈ sent, ∃ q, Header.parse d.payload none = .ok (.ok q) ∧ q.flags.fin = true ∧
    n = q.seqNumber.add 1

theorem BehindFin.mono {sent sent' : List Datagram} {n : SeqNumber} (h : BehindFin sent n)
    (hs : sent ⊆ sent') : BehindFin sent' n := by
  obtain ⟨d, hd, hq⟩ := h
  exact ⟨d, hs hd, hq⟩

namespace Pair

variable {α β : Type}

/-- What holds of the records `c` of the caller and `c'` of the callee after all moves. -/
structure Sound (p : Pair α β) (c c' : Connection) : Prop where
  callerLone : p.caller.Lone p.callerKey c
  calleeLone : p.callee.Lone p.calleeKey c'
  caller : Caller c p.caller.link.network.sent
  callee : Callee c' p.callee.link.network.sent
  callerInformed : c.Informed (2 ≤ c'.state.rank) (fun _ => True)
    (BehindFin p.callee.link.network.sent)
  calleeInformed : c'.Informed (3 ≤ c.state.rank) (· = c.initialSeq.add 1)
    (BehindFin p.caller.link.network.sent)

section

variable {p : Pair α β} {c c' : Connection}

/-- What a move of the caller keeps, which had the record `c₀` before. -/
structure CallerKeeps (p : Pair α β) (c' c₀ c : Connection) (sent : List Datagram) : Prop where
  caller : Caller c sent
  informed : c.Informed (2 ≤ c'.state.rank) (fun _ => True) (BehindFin p.callee.link.network.sent)
  grown : Grown c₀ p.caller.link.network.sent c sent

/-- What a move of the callee keeps, which had the record `c₀` before. -/
structure CalleeKeeps (p : Pair α β) (c c₀ c' : Connection) (sent : List Datagram) : Prop where
  callee : Callee c' sent
  informed : c'.Informed (3 ≤ c.state.rank) (· = c.initialSeq.add 1)
    (BehindFin p.caller.link.network.sent)
  grown : Grown c₀ p.callee.link.network.sent c' sent

theorem Sound.callerKeeps (hs : p.Sound c c') :
    p.CallerKeeps c' c c p.caller.link.network.sent :=
  ⟨hs.caller, hs.callerInformed, .rfl⟩

theorem Sound.calleeKeeps (hs : p.Sound c c') :
    p.CalleeKeeps c c' c' p.callee.link.network.sent :=
  ⟨hs.callee, hs.calleeInformed, .rfl⟩

theorem CallerKeeps.turn {e : Event} {t : Transition} {c₀ c₁ : Connection}
    {sent sent₁ : List Datagram} (h : p.CallerKeeps c' c₀ c sent)
    (ht : Link.Turn e t c sent c₁ sent₁) (hne : e ≠ .passiveOpen)
    (he : e.Tells (2 ≤ c'.state.rank) (fun _ => True) (BehindFin p.callee.link.network.sent)) :
    p.CallerKeeps c' c₀ c₁ sent₁ :=
  ⟨h.caller.turn ht hne, h.informed.turn ht he, h.grown.trans (.turn ht)⟩

theorem CalleeKeeps.turn {e : Event} {t : Transition} {c₀ c₁ : Connection}
    {sent sent₁ : List Datagram} (h : p.CalleeKeeps c c₀ c' sent)
    (ht : Link.Turn e t c' sent c₁ sent₁) (hne : e ≠ .activeOpen)
    (he : e.Tells (3 ≤ c.state.rank) (· = c.initialSeq.add 1)
      (BehindFin p.caller.link.network.sent)) :
    p.CalleeKeeps c c₀ c₁ sent₁ :=
  ⟨h.callee.turn ht hne, h.informed.turn ht he, h.grown.trans (.turn ht)⟩

/-- A datagram of the callee tells the caller the truth. -/
theorem Sound.tells_caller (hs : p.Sound c c') {d : Datagram}
    (hd : d ∈ p.callee.link.network.sent) {q : Header}
    (hq : Header.parse d.payload none = .ok (.ok q)) {e : Event}
    (he : e ∈ (Event.ofHeader q).filterMap id) : e ≠ .passiveOpen ∧
      e.Tells (2 ≤ c'.state.rank) (fun _ => True) (BehindFin p.callee.link.network.sent) := by
  obtain ⟨-, rfl⟩ | ⟨-, rfl⟩ | ⟨hf, rfl⟩ := Event.mem_ofHeader.mp he
  · exact ⟨by simp, trivial⟩
  · exact ⟨by simp, hs.callee d hd⟩
  · exact ⟨by simp, d, hd, q, hq, hf, rfl⟩

/-- A datagram of the caller tells the callee the truth. -/
theorem Sound.tells_callee (hs : p.Sound c c') {d : Datagram}
    (hd : d ∈ p.caller.link.network.sent) {q : Header}
    (hq : Header.parse d.payload none = .ok (.ok q)) {e : Event}
    (he : e ∈ (Event.ofHeader q).filterMap id) : e ≠ .activeOpen ∧
      e.Tells (3 ≤ c.state.rank) (· = c.initialSeq.add 1)
        (BehindFin p.caller.link.network.sent) := by
  have hem := hs.caller.emitted d hd q hq
  obtain ⟨hf, rfl⟩ | ⟨hf, rfl⟩ | ⟨hf, rfl⟩ := Event.mem_ofHeader.mp he
  · obtain ⟨-, hseq⟩ | ⟨hsyn, -⟩ := hem
    · refine ⟨by simp, ?_⟩
      show q.seqNumber.add 1 = c.initialSeq.add 1
      rw [hseq]
    · rw [hf] at hsyn; cases hsyn
  · obtain ⟨hsyn, -⟩ | ⟨-, hrank⟩ := hem
    · rw [hsyn] at hf; cases hf
    · exact ⟨by simp, hrank⟩
  · exact ⟨by simp, d, hd, q, hq, hf, rfl⟩

theorem Sound.caller_moved (hs : p.Sound c c') {h : Host α Outbox} {c₁ : Connection}
    (hl : h.Lone p.callerKey c₁) (hk : p.CallerKeeps c' c c₁ h.link.network.sent) :
    ({ p with caller := h } : Pair α β).Sound c₁ c' where
  callerLone := hl
  calleeLone := hs.calleeLone
  caller := hk.caller
  callee := hs.callee
  callerInformed := hk.informed
  calleeInformed := hs.calleeInformed.mono (fun hr => Nat.le_trans hr hk.grown.rank)
    (fun _ hn => by rw [hn, hk.grown.initialSeq]) fun _ hn => hn.mono hk.grown.kept

theorem Sound.callee_moved (hs : p.Sound c c') {h : Host β Outbox} {c₁ : Connection}
    (hl : h.Lone p.calleeKey c₁) (hk : p.CalleeKeeps c c' c₁ h.link.network.sent) :
    ({ p with callee := h } : Pair α β).Sound c c₁ where
  callerLone := hs.callerLone
  calleeLone := hl
  caller := hs.caller
  callee := hk.callee
  callerInformed := hs.callerInformed.mono (fun hr => Nat.le_trans hr hk.grown.rank)
    (fun _ _ => trivial) fun _ hn => hn.mono hk.grown.kept
  calleeInformed := hk.informed

end

theorem sound_start {callerConfig calleeConfig : Config} {callerArena : α} {calleeArena : β}
    {callerPort calleePort : UInt16} {p : Pair α β}
    (hp : start callerConfig calleeConfig callerArena calleeArena callerPort calleePort =
      .ok (some p)) : ∃ c c', p.Sound c c' := by
  unfold start at hp
  obtain ⟨⟨a, h⟩, ha, hp⟩ := Except.bind_eq_ok.mp hp
  obtain ⟨⟨b, h'⟩, hb, hp⟩ := Except.bind_eq_ok.mp hp
  cases a with
  | error e => cases hp
  | ok k =>
    cases b with
    | error e => cases hp
    | ok k' =>
      cases hp
      obtain ⟨⟨u, hl⟩, hn⟩ := Host.lone_create ha
      obtain ⟨⟨u', hl'⟩, hn'⟩ := Host.lone_create hb
      refine ⟨_, _, hl, hl', ?_, ?_, ?_, ?_⟩
      · refine ⟨by simp [Connection.new], fun _ => rfl, fun d hd => ?_⟩
        rw [show h.link.network.sent = [] by rw [hn]] at hd
        cases hd
      · intro d hd
        rw [show h'.link.network.sent = [] by rw [hn']] at hd
        cases hd
      · exact ⟨by simp [Connection.new, State.rank], by simp [Connection.new],
          by simp [Connection.new, State.rank]⟩
      · exact ⟨by simp [Connection.new, State.rank], by simp [Connection.new],
          by simp [Connection.new, State.rank]⟩

variable [Arena α] [Arena β]

/-- No move faults, and each keeps what holds of the records. -/
theorem Sound.step {p : Pair α β} {c c' : Connection} (hs : p.Sound c c') (m : Move α β) :
    ∃ p' c₁ c₁', p.step m = .ok p' ∧ p'.Sound c₁ c₁' := by
  cases m with
  | connect =>
    obtain ⟨a, c₁, l, ho, he⟩ := Host.connect_cases hs.callerLone.live
    obtain ⟨hl, hk⟩ := hs.callerLone.opened hs.callerKeeps ho
      fun _ _ _ _ _ hk ht => hk.turn ht (by simp) fun _ => trivial
    exact ⟨_, c₁, c', by unfold Pair.step; dsimp only; rw [he]; rfl, hs.caller_moved hl hk⟩
  | listen =>
    obtain ⟨a, c₁, l, ho, he⟩ := Host.listen_cases hs.calleeLone.live
    obtain ⟨hl, hk⟩ := hs.calleeLone.opened hs.calleeKeeps ho
      fun _ _ _ _ _ hk ht => hk.turn ht (by simp) trivial
    exact ⟨_, c, c₁, by unfold Pair.step; dsimp only; rw [he]; rfl, hs.callee_moved hl hk⟩
  | toCallee i =>
    obtain ⟨h, c₁, he, hl, hk⟩ := hs.calleeLone.hear hs.calleeKeeps p.caller.link.network.sent[i]?
      fun d q hd hq e hev _ _ _ _ _ hk ht =>
        have ht' := hs.tells_callee (List.mem_of_getElem? hd) hq hev
        hk.turn ht ht'.1 ht'.2
    exact ⟨_, c, c₁, by unfold Pair.step; dsimp only; rw [he]; rfl, hs.callee_moved hl hk⟩
  | toCaller i =>
    obtain ⟨h, c₁, he, hl, hk⟩ := hs.callerLone.hear hs.callerKeeps p.callee.link.network.sent[i]?
      fun d q hd hq e hev _ _ _ _ _ hk ht =>
        have ht' := hs.tells_caller (List.mem_of_getElem? hd) hq hev
        hk.turn ht ht'.1 ht'.2
    exact ⟨_, c₁, c', by unfold Pair.step; dsimp only; rw [he]; rfl, hs.caller_moved hl hk⟩
  | callerSends f b =>
    obtain ⟨h, c₁, he, hl, hk⟩ := hs.callerLone.speak hs.callerKeeps b
      fun hest hf _ _ hh =>
        ⟨hs.caller.handed hest hf hh, hs.callerInformed.advance f b, .handed hh⟩
    exact ⟨_, c₁, c', by unfold Pair.step; dsimp only; rw [he]; rfl, hs.caller_moved hl hk⟩
  | calleeSends f b =>
    obtain ⟨h, c₁, he, hl, hk⟩ := hs.calleeLone.speak hs.calleeKeeps b
      fun hest _ _ _ hh => ⟨.handed hest _, hs.calleeInformed.advance f b, .handed hh⟩
    exact ⟨_, c, c₁, by unfold Pair.step; dsimp only; rw [he]; rfl, hs.callee_moved hl hk⟩
  | callerMeets arena script failure =>
    exact ⟨_, c, c', rfl, hs.caller_moved hs.callerLone hs.callerKeeps⟩
  | calleeMeets arena script failure =>
    exact ⟨_, c, c', rfl, hs.callee_moved hs.calleeLone hs.calleeKeeps⟩

theorem Sound.run {p : Pair α β} {c c' : Connection} (hs : p.Sound c c') (ms : List (Move α β)) :
    ∃ p' c₁ c₁', p.run ms = .ok p' ∧ p'.Sound c₁ c₁' := by
  induction ms generalizing p c c' with
  | nil => exact ⟨p, c, c', rfl, hs⟩
  | cons m ms ih =>
    obtain ⟨p₁, c₁, c₁', he, hs₁⟩ := hs.step m
    obtain ⟨p', c₂, c₂', he', hs₂⟩ := ih hs₁
    refine ⟨p', c₂, c₂', ?_, hs₂⟩
    unfold Pair.run
    rw [List.foldlM_cons, he]
    exact he'

/-- Whatever happens between a caller and a callee: if one of them is established, the other has
taken part in the handshake; while the callee has not heard a FIN, it expects the number behind the
caller's first; and whoever has heard a FIN expects the number behind that of a FIN which the other
has emitted. -/
theorem handshake_agreement {callerConfig calleeConfig : Config} {callerArena : α}
    {calleeArena : β} {callerPort calleePort : UInt16} {p₀ : Pair α β}
    (hp : start callerConfig calleeConfig callerArena calleeArena callerPort calleePort =
      .ok (some p₀)) (ms : List (Move α β)) :
    ∃ p c c', p₀.run ms = .ok p ∧
      p.caller.get? p.callerKey = some c ∧ p.callee.get? p.calleeKey = some c' ∧
      (c.state ∈ [.established, .closeWait, .lastAck] →
        c'.state ∈ [.synReceived, .established, .closeWait, .lastAck]) ∧
      (c'.state ∈ [.established, .closeWait, .lastAck] →
        c.state ∈ [.established, .closeWait, .lastAck]) ∧
      (c'.state ∈ [.synReceived, .established] → c'.recvNext = c.initialSeq.add 1) ∧
      (c.state ∈ [.closeWait, .lastAck] → BehindFin p.callee.link.network.sent c.recvNext) ∧
      (c'.state ∈ [.closeWait, .lastAck] → BehindFin p.caller.link.network.sent c'.recvNext) := by
  obtain ⟨c₀, c₀', hs₀⟩ := sound_start hp
  obtain ⟨p, c, c', he, hs⟩ := hs₀.run ms
  refine ⟨p, c, c', he, hs.callerLone.live, hs.calleeLone.live, ?_, ?_, ?_, ?_, ?_⟩
  · rw [← State.three_le_rank, ← State.two_le_rank]
    exact hs.callerInformed.acked
  · rw [← State.three_le_rank, ← State.three_le_rank]
    exact hs.calleeInformed.acked
  · intro hst
    exact hs.calleeInformed.opened (.inr (by simpa using hst))
  · rw [← State.four_le_rank]
    exact hs.callerInformed.closing
  · rw [← State.four_le_rank]
    exact hs.calleeInformed.closing

/-- The caller is established by a SYN+ACK that comes after its SYN. -/
theorem handshake_agreement_exchange : ∃ p₀ p : Pair Unbounded Unbounded, ∃ c c' : Connection,
    start { address := ⟨10, 0, 0, 1⟩ } { address := ⟨10, 0, 0, 2⟩ } {} {} 5000 80 = .ok (some p₀) ∧
    p₀.run [.listen, .connect, .toCallee 0, .toCaller 0] = .ok p ∧
    p.caller.get? p.callerKey = some c ∧ p.callee.get? p.calleeKey = some c' ∧
    c.state = .established ∧ c'.state ∈ [.synReceived, .established, .closeWait, .lastAck] := by
  have hp : start { address := ⟨10, 0, 0, 1⟩ } { address := ⟨10, 0, 0, 2⟩ } ({} : Unbounded)
      ({} : Unbounded) 5000 80 = .ok (some _) := rfl
  obtain ⟨p, c, c', he, hc, hc', hest, -⟩ :=
    handshake_agreement hp [.listen, .connect, .toCallee 0, .toCaller 0]
  have hs : c.state = .established := by
    have hrun := he
    cases hrun
    cases hc
    rfl
  exact ⟨_, p, c, c', hp, he, hc, hc', hs, hest (by simp [hs])⟩

end Pair

end TcpEngine
