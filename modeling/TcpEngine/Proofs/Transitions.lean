import TcpEngine.Proofs.ConnectionTable
import TcpEngine.Proofs.Sending

/-!
# What an operation does to a record

Connecting, listening, sending and receiving work on one live record and on the link. Of a host `h`
they leave `h.hold k c l`, with the record `c` under the key `k` and the link `l` (`get?_hold`,
`hold_hold`, `hold_self`). What `c` and `l` can be is said by relations, which the lemmas
`send_cases`, `reply_cases`, `carryOut_cases`, `connect_cases`, `listen_cases`, `feed_cases` and
`receive_cases` tie to the operations. None of them faults.

* `Link.Sent`: a segment is too long, is not built, or is handed over.
* `Link.Replied`: all replies of a list are handed over, one after the other.
* `Link.Carried`: a transition is completed; or it is undone, because its first reply could not be
  built; or it is halted at a later reply.
* `Link.Opened`: opening is not permitted, or its transition is carried out.
* `Link.Fed`: events are ignored or carried out in turn, up to the first failure of the arena.
-/

namespace TcpEngine

/-! ## The record under a key -/

namespace Host

variable {α ν : Type}

/-- The host with the record `c` under the key `k` and the link `l`. -/
def hold (h : Host α ν) (k : Key) (c : Connection) (l : Link α ν) : Host α ν :=
  { h with link := l }.put k c

section

variable {h : Host α ν} {k : Key} {c₀ : Connection}

@[simp] theorem link_hold (h : Host α ν) (k : Key) (c : Connection) (l : Link α ν) :
    (h.hold k c l).link = l := rfl

@[simp] theorem table_hold (h : Host α ν) (k : Key) (c : Connection) (l : Link α ν) :
    (h.hold k c l).table = h.table.put k c := rfl

theorem get?_of_table {h' : Host α ν} (ht : h'.table = h.table) (k : Key) :
    h'.get? k = h.get? k := congrArg (fun t => t.get? k) ht

theorem get?_hold (hk : h.get? k = some c₀) (c : Connection) (l : Link α ν) (k' : Key) :
    (h.hold k c l).get? k' = if k' = k then some c else h.get? k' :=
  ConnectionTable.get?_put hk c k'

theorem get?_hold_self (hk : h.get? k = some c₀) (c : Connection) (l : Link α ν) :
    (h.hold k c l).get? k = some c := by
  rw [get?_hold hk, if_pos rfl]

theorem hold_hold (hk : h.get? k = some c₀) (c c' : Connection) (l l' : Link α ν) :
    (h.hold k c l).hold k c' l' = h.hold k c' l' := by
  have hk' : h.table.get? k = some c₀ := hk
  have hk₁ : (h.table.put k c).get? k = some c := get?_hold_self hk c l
  simp only [hold, put]
  rw [ConnectionTable.put_eq hk₁, ConnectionTable.put_eq hk', ConnectionTable.put_eq hk']
  simp

/-- A host that is held has a record and a link to tell. -/
theorem hold_inj (hk : h.get? k = some c₀) {c c' : Connection} {l l' : Link α ν}
    (he : h.hold k c l = h.hold k c' l') : c = c' ∧ l = l' := by
  have hrecord := get?_hold_self hk c l
  rw [he, get?_hold_self hk] at hrecord
  exact ⟨(Option.some.inj hrecord).symm, congrArg Host.link he⟩

theorem put_hold (hk : h.get? k = some c₀) (c c' : Connection) (l : Link α ν) :
    (h.hold k c l).put k c' = h.hold k c' l := hold_hold hk c c' l l

/-- A host is held by what it has. -/
theorem hold_self (hk : h.get? k = some c₀) (l : Link α ν) :
    h.hold k c₀ l = { h with link := l } := by
  have hk' : h.table.get? k = some c₀ := hk
  have hs : h.table.records.store k c₀ = h.table.records := SlotMap.store_self hk
  simp only [hold, put]
  rw [ConnectionTable.put_eq hk', hs]

end

end Host

/-! ## The order of a connection's life -/

namespace State

/-- How far a connection has come. -/
def rank : State → Nat
  | closed => 0
  | listen => 1
  | synSent => 1
  | synReceived => 2
  | established => 3
  | closeWait => 4
  | lastAck => 5

theorem rank_le_one {s : State} : s.rank ≤ 1 ↔ s ∈ [.closed, .listen, .synSent] := by
  cases s <;> decide

theorem two_le_rank {s : State} :
    2 ≤ s.rank ↔ s ∈ [.synReceived, .established, .closeWait, .lastAck] := by
  cases s <;> decide

theorem three_le_rank {s : State} : 3 ≤ s.rank ↔ s ∈ [.established, .closeWait, .lastAck] := by
  cases s <;> decide

theorem four_le_rank {s : State} : 4 ≤ s.rank ↔ s ∈ [.closeWait, .lastAck] := by
  cases s <;> decide

/-- A transition leads forward. -/
theorem rank_next? {s : State} {e : Event} {t : Transition} (h : s.next? e = some t) :
    s.rank < t.during.rank ∧ t.during.rank ≤ t.after.rank := by
  cases s <;> cases e <;> cases h <;> simp [rank, Transition.to]

end State

theorem Event.mem_ofHeader {q : Header} {e : Event} :
    e ∈ (Event.ofHeader q).filterMap id ↔ (q.flags.syn = true ∧ e = .syn q.seqNumber) ∨
      (q.flags.ack = true ∧ e = .ack) ∨ (q.flags.fin = true ∧ e = .fin q.seqNumber) := by
  unfold Event.ofHeader
  cases q.flags.syn <;> cases q.flags.ack <;> cases q.flags.fin <;> simp

/-! ## Outcomes -/

namespace Link

variable {α ν : Type} [Network ν]

/-- Segments without a payload and with the flags of a list were handed over one after the other.
The refusal is the first that the network layer gave. -/
inductive Replied : Link α ν → Connection → List Flags → Option Refusal → Connection →
    Link α ν → Prop
  | nil (l : Link α ν) (c : Connection) : Replied l c [] none c l
  | cons {l l₁ l' : Link α ν} {c c' : Connection} {f : Flags} {fs : List Flags}
    {r r' : Option Refusal} : l.Handed c f [] r l₁ → Replied l₁ (c.advance f []) fs r' c' l' →
    Replied l c (f :: fs) (r <|> r') c' l'

theorem Replied.fixed {l l' : Link α ν} {c c' : Connection} {fs : List Flags} {r : Option Refusal}
    (h : Replied l c fs r c' l') : c'.fixed = c.fixed := by
  induction h with
  | nil _ _ => rfl
  | cons _ _ ih => exact ih

theorem Replied.state {l l' : Link α ν} {c c' : Connection} {fs : List Flags} {r : Option Refusal}
    (h : Replied l c fs r c' l') : c'.state = c.state := by
  induction h with
  | nil _ _ => rfl
  | cons _ _ ih => exact ih

theorem Replied.recvNext {l l' : Link α ν} {c c' : Connection} {fs : List Flags}
    {r : Option Refusal} (h : Replied l c fs r c' l') : c'.recvNext = c.recvNext := by
  induction h with
  | nil _ _ => rfl
  | cons _ _ ih => exact ih

/-- The link after the record `c` was brought to the state `s`. -/
def settle (l : Link α ν) (c : Connection) (s : State) : Link α ν :=
  if c.state = s then l else l.note (.finished c.tuple c.state s)

omit [Network ν] in
@[simp] theorem network_note (l : Link α ν) (n : Note) : (l.note n).network = l.network := rfl

omit [Network ν] in
theorem network_settle (l : Link α ν) (c : Connection) (s : State) :
    (l.settle c s).network = l.network := by
  unfold settle
  split <;> rfl

/-- The transition `t` of the record `c` on an event was carried out. -/
inductive Carried (l : Link α ν) (c : Connection) (event : Event) (t : Transition) :
    Except Error Unit → Connection → Link α ν → Prop
  /-- All replies were handed over. -/
  | completed {r : Option Refusal} {c₁ : Connection} {l₁ : Link α ν} :
    Replied (l.note (.moved c.tuple c.state event t.during)) (c.step t) t.replies r c₁ l₁ →
    Carried l c event t (Host.answerOf r) { c₁ with state := t.after } (l₁.settle c₁ t.after)
  /-- The first reply was not built. -/
  | undone {f : Flags} {rest : List Flags} {l' : Link α ν} : t.replies = f :: rest →
    Unbuilt (l.note (.moved c.tuple c.state event t.during)) (c.step t) f [] l' →
    Carried l c event t (.error .noMemory) c l'
  /-- Some replies were handed over, and the next one was not built. -/
  | halted {sent : List Flags} {f : Flags} {rest : List Flags} {r : Option Refusal}
    {c₁ : Connection} {l₁ l' : Link α ν} : t.replies = sent ++ f :: rest → sent ≠ [] →
    Replied (l.note (.moved c.tuple c.state event t.during)) (c.step t) sent r c₁ l₁ →
    Unbuilt l₁ c₁ f [] l' → Carried l c event t (.error .noMemory) c₁ l'

/-- A transition is answered with a refusal of the network layer, or it is cut off. -/
theorem Carried.answer {l l' : Link α ν} {c c' : Connection} {e : Event} {t : Transition}
    {a : Except Error Unit} (h : Carried l c e t a c' l') :
    (∃ r, a = Host.answerOf r) ∨ a = .error .noMemory := by
  cases h with
  | completed _ => exact .inl ⟨_, rfl⟩
  | undone _ _ => exact .inr rfl
  | halted _ _ _ _ => exact .inr rfl

/-- With such an answer all replies were handed over. -/
theorem Carried.completed_cases {l l' : Link α ν} {c c' : Connection} {e : Event} {t : Transition}
    {r : Option Refusal} (h : Carried l c e t (Host.answerOf r) c' l') :
    ∃ c₁ l₁, Replied (l.note (.moved c.tuple c.state e t.during)) (c.step t) t.replies r c₁ l₁ ∧
      c' = { c₁ with state := t.after } ∧ l' = l₁.settle c₁ t.after := by
  generalize ha : Host.answerOf r = a at h
  cases h with
  | @completed r' c₁ l₁ hr =>
    obtain rfl : r = r' := by cases r <;> cases r' <;> cases ha <;> rfl
    exact ⟨c₁, l₁, hr, rfl, rfl⟩
  | undone _ _ => cases r <;> cases ha
  | halted _ _ _ _ => cases r <;> cases ha

/-- Without memory, no reply was handed over and the record is as before, or some were. -/
theorem Carried.noMemory_cases {l l' : Link α ν} {c c' : Connection} {e : Event} {t : Transition}
    (h : Carried l c e t (.error .noMemory) c' l') :
    (∃ f rest, t.replies = f :: rest ∧ c' = c ∧
      Unbuilt (l.note (.moved c.tuple c.state e t.during)) (c.step t) f [] l') ∨
    ∃ sent f rest r l₁, t.replies = sent ++ f :: rest ∧ sent ≠ [] ∧
      Replied (l.note (.moved c.tuple c.state e t.during)) (c.step t) sent r c' l₁ ∧
      Unbuilt l₁ c' f [] l' := by
  generalize ha : (Except.error Error.noMemory : Except Error Unit) = a at h
  cases h with
  | @completed r _ _ _ => cases r <;> cases ha
  | undone hfs hu => exact .inl ⟨_, _, hfs, rfl, hu⟩
  | halted hfs hne hr hu => exact .inr ⟨_, _, _, _, _, hfs, hne, hr, hu⟩

theorem Carried.fixed {l l' : Link α ν} {c c' : Connection} {e : Event} {t : Transition}
    {a : Except Error Unit} (h : Carried l c e t a c' l') : c'.fixed = c.fixed := by
  cases h with
  | completed hr => exact hr.fixed
  | undone _ _ => rfl
  | halted _ _ hr _ => exact hr.fixed

theorem Carried.rank_le {l l' : Link α ν} {c c' : Connection} {e : Event} {t : Transition}
    {a : Except Error Unit} (hn : c.state.next? e = some t) (h : Carried l c e t a c' l') :
    c.state.rank ≤ c'.state.rank := by
  obtain ⟨hlt, hle⟩ := State.rank_next? hn
  cases h with
  | completed _ => exact Nat.le_trans (Nat.le_of_lt hlt) hle
  | undone _ _ => exact Nat.le_refl _
  | halted _ _ hr _ => rw [hr.state]; exact Nat.le_of_lt hlt

/-- The user opened the record `c`, which is not permitted in every state. -/
inductive Opened (l : Link α ν) (c : Connection) (e : Event) :
    Except Error Unit → Connection → Link α ν → Prop
  | notPermitted : c.state.next? e = none →
    Opened l c e (.error .notPermitted) c (l.note (.ignored c.tuple e c.state))
  | carried {t : Transition} {a : Except Error Unit} {c' : Connection} {l' : Link α ν} :
    c.state.next? e = some t → Carried l c e t a c' l' → Opened l c e a c' l'

theorem Opened.fixed {l l' : Link α ν} {c c' : Connection} {e : Event} {a : Except Error Unit}
    (h : Opened l c e a c' l') : c'.fixed = c.fixed := by
  cases h with
  | notPermitted _ => rfl
  | carried _ hc => exact hc.fixed

/-- The record `c` was fed with events; `r` is a refusal from before. -/
inductive Fed : Link α ν → Connection → Option Refusal → List Event → Except Error Unit →
    Connection → Link α ν → Prop
  | nil (l : Link α ν) (c : Connection) (r : Option Refusal) : Fed l c r [] (Host.answerOf r) c l
  | ignored {l l' : Link α ν} {c c' : Connection} {r : Option Refusal} {e : Event}
    {es : List Event} {a : Except Error Unit} : c.state.next? e = none →
    Fed (l.note (.ignored c.tuple e c.state)) c r es a c' l' → Fed l c r (e :: es) a c' l'
  | carried {l l₁ l' : Link α ν} {c c₁ c' : Connection} {r r₁ : Option Refusal} {e : Event}
    {es : List Event} {t : Transition} {a : Except Error Unit} : c.state.next? e = some t →
    Carried l c e t (Host.answerOf r₁) c₁ l₁ → Fed l₁ c₁ (r <|> r₁) es a c' l' →
    Fed l c r (e :: es) a c' l'
  | stopped {l l' : Link α ν} {c c' : Connection} {r : Option Refusal} {e : Event}
    {es : List Event} {t : Transition} : c.state.next? e = some t →
    Carried l c e t (.error .noMemory) c' l' → Fed l c r (e :: es) (.error .noMemory) c' l'

theorem Fed.fixed {l l' : Link α ν} {c c' : Connection} {r : Option Refusal} {es : List Event}
    {a : Except Error Unit} (h : Fed l c r es a c' l') : c'.fixed = c.fixed := by
  induction h with
  | nil _ _ _ => rfl
  | ignored _ _ ih => exact ih
  | carried _ hc _ ih => rw [ih, hc.fixed]
  | stopped _ hc => exact hc.fixed

/-- No event leads back. -/
theorem Fed.rank_le {l l' : Link α ν} {c c' : Connection} {r : Option Refusal} {es : List Event}
    {a : Except Error Unit} (h : Fed l c r es a c' l') : c.state.rank ≤ c'.state.rank := by
  induction h with
  | nil _ _ _ => exact Nat.le_refl _
  | ignored _ _ ih => exact ih
  | carried hn hc _ ih => exact Nat.le_trans (hc.rank_le hn) ih
  | stopped hn hc => exact hc.rank_le hn

end Link

/-! ## The operations -/

namespace Host

section

variable {α ν : Type} {h : Host α ν} {k : Key} {c : Connection}

theorem create_eq {remoteAddr : Address} {remotePort localPort : UInt16} {a : Except Error Key}
    {t : ConnectionTable} {n : Note}
    (he : h.table.create remoteAddr remotePort localPort = .ok (a, t, n)) :
    h.create remoteAddr remotePort localPort = .ok (a, { h with table := t }.note n) := by
  unfold create
  rw [he]
  rfl

theorem close_eq {t : ConnectionTable} {ns : List Note} (he : h.table.close k = .ok (t, ns)) :
    h.close k = .ok ({ h with table := t }.notes ns) := by
  unfold close
  rw [he]
  rfl

theorem transition_eq (hk : h.get? k = some c) (event : Event) :
    h.transition k event = (.ok (c.state.next? event),
      if (c.state.next? event).isSome then h
      else h.hold k c (h.link.note (.ignored c.tuple event c.state))) := by
  unfold transition
  rw [hk]
  dsimp only
  cases hn : c.state.next? event with
  | none => rw [hold_self hk]; rfl
  | some t => rfl

theorem transition_stale (hk : h.get? k = none) (event : Event) :
    h.transition k event = (.error .noConnection, h) := by
  unfold transition
  rw [hk]

theorem listen_stale (hk : h.get? k = none) : h.listen k = .ok (.error .noConnection, h) := by
  unfold listen
  rw [transition_stale hk]

theorem beginTransition_eq (hk : h.get? k = some c) (event : Event) (t : Transition) :
    h.beginTransition k event t =
      (.ok c, h.hold k (c.step t) (h.link.note (.moved c.tuple c.state event t.during))) := by
  unfold beginTransition
  rw [hk]
  rfl

theorem beginTransition_stale (hk : h.get? k = none) (event : Event) (t : Transition) :
    h.beginTransition k event t = (.error .noConnection, h) := by
  unfold beginTransition
  rw [hk]

theorem endTransition_stale (hk : h.get? k = none) (s : State) :
    h.endTransition k s = (.error .noConnection, h) := by
  unfold endTransition
  rw [hk]

theorem endTransition_eq (hk : h.get? k = some c) (s : State) :
    h.endTransition k s = (.ok (), h.hold k { c with state := s } (h.link.settle c s)) := by
  unfold endTransition Link.settle
  rw [hk]
  dsimp only
  split
  · rename_i hs
    rw [← hs, hold_self hk]
  · rfl

end

variable {α ν : Type} [Arena α] [Network ν] {h : Host α ν} {k : Key} {c : Connection}

theorem send_eq (hk : h.get? k = some c) {f : Flags} {p : Octets} {a : Except Error Unit}
    {c' : Connection} {l' : Link α ν} (he : h.link.send c f p = .ok (a, c', l')) :
    h.send k f p = .ok (a, h.hold k c' l') := by
  unfold send
  rw [hk]
  dsimp only
  rw [he]
  rfl

/-- What sending on a connection leads to. -/
theorem send_cases (hk : h.get? k = some c) (f : Flags) (p : Octets) :
    ∃ a c' l', h.link.Sent c f p a c' l' ∧ h.send k f p = .ok (a, h.hold k c' l') := by
  obtain ⟨a, c', l', hs, he⟩ := h.link.send_cases c f p
  exact ⟨a, c', l', hs, send_eq hk he⟩

theorem send_stale (hk : h.get? k = none) (f : Flags) (p : Octets) :
    h.send k f p = .ok (.error .noConnection, h) := by
  unfold send
  rw [hk]

/-- A segment without a payload is not built, or it is handed over. -/
theorem send_nil_cases (hk : h.get? k = some c) (f : Flags) :
    (∃ l', h.link.Unbuilt c f [] l' ∧ h.send k f [] = .ok (.error .noMemory, h.hold k c l')) ∨
    ∃ r l', h.link.Handed c f [] r l' ∧
      h.send k f [] = .ok (answerOf r, h.hold k (c.advance f []) l') := by
  obtain ⟨a, c', l', hs, he⟩ := send_cases hk f []
  cases hs with
  | tooLarge hlong => exact absurd hlong (Nat.not_lt_zero _)
  | unbuilt _ hu => exact .inl ⟨l', hu, he⟩
  | @handed r _ _ hh => exact .inr ⟨r, l', hh, he⟩

omit [Arena α] [Network ν] in
/-- An operation was answered with a refusal of the network layer at most, or it has failed. -/
theorem answer_cases (a : Except Error Unit) :
    (∃ r, a = answerOf r) ∨ ∃ e, a = .error e ∧ ∀ r, e ≠ .undelivered r := by
  cases a with
  | ok _ => exact .inl ⟨none, rfl⟩
  | error e =>
    cases e with
    | undelivered r => exact .inl ⟨some r, rfl⟩
    | _ => exact .inr ⟨_, rfl, by simp⟩

/-- A reply that was handed over is followed by the others. -/
theorem reply_cons {h₁ : Host α ν} {f : Flags} {r : Option Refusal}
    (he : h.send k f [] = .ok (answerOf r, h₁)) (snapshot : Connection) (first : Bool)
    (refusal : Option Refusal) (fs : List Flags) :
    h.reply k snapshot first refusal (f :: fs) =
      h₁.reply k snapshot false (refusal <|> r) fs := by
  conv => lhs; unfold reply
  rw [he]
  cases r with
  | none => cases refusal <;> rfl
  | some e => rfl

/-- A reply that was not handed over is the last. If it is the first as well, the snapshot is put
back. -/
theorem reply_failed {h₁ : Host α ν} {f : Flags} {e : Error}
    (he : h.send k f [] = .ok (.error e, h₁)) (hown : ∀ r, e ≠ .undelivered r)
    (snapshot : Connection) (first : Bool) (refusal : Option Refusal) (fs : List Flags) :
    h.reply k snapshot first refusal (f :: fs) =
      .ok (.error e, if first then h₁.put k snapshot else h₁) := by
  unfold reply
  rw [he]
  cases e with
  | undelivered r => exact absurd rfl (hown r)
  | _ => rfl

/-- Replies are handed over up to the first that is not built. If none was before, the snapshot is
put back. -/
theorem reply_cases (hk : h.get? k = some c) (snapshot : Connection) (first : Bool)
    (refusal : Option Refusal) (fs : List Flags) :
    (∃ r c' l', h.link.Replied c fs r c' l' ∧
      h.reply k snapshot first refusal fs = .ok (.ok (refusal <|> r), h.hold k c' l')) ∨
    ∃ sent f rest r c₁ l₁ l', fs = sent ++ f :: rest ∧ h.link.Replied c sent r c₁ l₁ ∧
      l₁.Unbuilt c₁ f [] l' ∧ h.reply k snapshot first refusal fs =
        .ok (.error .noMemory, h.hold k (if first ∧ sent = [] then snapshot else c₁) l') := by
  induction fs generalizing h c first refusal with
  | nil =>
    refine .inl ⟨none, c, h.link, .nil _ _, ?_⟩
    rw [hold_self hk]
    cases refusal <;> rfl
  | cons f fs ih =>
    obtain ⟨l', hu, he⟩ | ⟨r, l₁, hh, he⟩ := send_nil_cases hk f
    · refine .inr ⟨[], f, fs, none, c, h.link, l', rfl, .nil _ _, hu, ?_⟩
      rw [reply_failed he (by simp)]
      cases first with
      | true => simp [put_hold hk]
      | false => simp
    · have hk₁ := get?_hold_self hk (c.advance f []) l₁
      have hor (r' : Option Refusal) : ((refusal <|> r) <|> r') = (refusal <|> (r <|> r')) := by
        cases refusal <;> rfl
      rw [reply_cons he]
      obtain ⟨r', c', l', hr, he'⟩ | ⟨sent, g, rest, r', c', l₂, l', hfs, hr, hu, he'⟩ :=
        ih hk₁ false (refusal <|> r)
      · rw [hold_hold hk, hor] at he'
        exact .inl ⟨r <|> r', c', l', .cons hh hr, he'⟩
      · rw [hold_hold hk] at he'
        have hfs' : f :: fs = f :: sent ++ g :: rest := by rw [hfs]; rfl
        refine .inr ⟨f :: sent, g, rest, r <|> r', c', l₂, l', hfs', .cons hh hr, hu, ?_⟩
        simpa using he'

/-- A transition is completed when its replies are handed over. -/
theorem carryOut_completed (hk : h.get? k = some c) {event : Event} {t : Transition}
    {r : Option Refusal} {h₁ : Host α ν} {c₁ : Connection}
    (hr : (h.hold k (c.step t) (h.link.note (.moved c.tuple c.state event t.during))).reply k c
      true none t.replies = .ok (.ok r, h₁)) (hk₁ : h₁.get? k = some c₁) :
    h.carryOut k event t = .ok (answerOf r,
      h₁.hold k { c₁ with state := t.after } (h₁.link.settle c₁ t.after)) := by
  unfold carryOut
  rw [beginTransition_eq hk]
  dsimp only
  rw [hr, Except.ok_bind]
  dsimp only
  rw [endTransition_eq hk₁]
  cases r <;> rfl

/-- What carrying out a transition leads to. -/
theorem carryOut_cases (hk : h.get? k = some c) (event : Event) (t : Transition) :
    ∃ a c' l', h.link.Carried c event t a c' l' ∧
      h.carryOut k event t = .ok (a, h.hold k c' l') := by
  have hk₁ := get?_hold_self hk (c.step t) (h.link.note (.moved c.tuple c.state event t.during))
  obtain ⟨r, c₁, l₁, hr, he⟩ | ⟨sent, f, rest, r, c₁, l₁, l', hfs, hr, hu, he⟩ :=
    reply_cases hk₁ c true none t.replies
  · refine ⟨_, _, _, .completed hr, ?_⟩
    rw [hold_hold hk] at he
    rw [carryOut_completed hk he (get?_hold_self hk c₁ l₁), hold_hold hk, link_hold]
    cases r <;> rfl
  · rw [hold_hold hk] at he
    unfold carryOut
    rw [beginTransition_eq hk]
    dsimp only
    cases sent with
    | nil =>
      cases hr
      exact ⟨_, _, _, .undone hfs hu, by rw [he]; rfl⟩
    | cons g sent => exact ⟨_, _, _, .halted hfs (by simp) hr hu, by rw [he]; rfl⟩

theorem connect_stale (hk : h.get? k = none) : h.connect k = .ok (.error .noConnection, h) := by
  unfold connect
  rw [transition_stale hk]

theorem connect_notPermitted (hk : h.get? k = some c) (hn : c.state.next? .activeOpen = none) :
    h.connect k = .ok (.error .notPermitted,
      h.hold k c (h.link.note (.ignored c.tuple .activeOpen c.state))) := by
  unfold connect
  rw [transition_eq hk, hn]
  rfl

theorem connect_eq (hk : h.get? k = some c) {t : Transition}
    (hn : c.state.next? .activeOpen = some t) : h.connect k = h.carryOut k .activeOpen t := by
  unfold connect
  rw [transition_eq hk, hn]
  rfl

/-- Connecting carries out the transition of CLOSED, and is not permitted in other states. -/
theorem connect_cases (hk : h.get? k = some c) :
    ∃ a c' l', h.link.Opened c .activeOpen a c' l' ∧ h.connect k = .ok (a, h.hold k c' l') := by
  cases hn : c.state.next? .activeOpen with
  | none => exact ⟨_, _, _, .notPermitted hn, connect_notPermitted hk hn⟩
  | some t =>
    obtain ⟨a, c', l', hc, he⟩ := carryOut_cases hk .activeOpen t
    exact ⟨a, c', l', .carried hn hc, (connect_eq hk hn).trans he⟩

/-- The only transition of a passive open. -/
theorem next?_passiveOpen {s : State} {t : Transition} (h : s.next? .passiveOpen = some t) :
    s = .closed ∧ t = .to .listen := by
  cases s <;> cases h
  exact ⟨rfl, rfl⟩

omit [Arena α] [Network ν] in
theorem listen_notPermitted (hk : h.get? k = some c) (hn : c.state.next? .passiveOpen = none) :
    h.listen k = .ok (.error .notPermitted,
      h.hold k c (h.link.note (.ignored c.tuple .passiveOpen c.state))) := by
  unfold listen
  rw [transition_eq hk, hn]
  rfl

omit [Arena α] [Network ν] in
/-- A record in CLOSED is brought to LISTEN. -/
theorem listen_eq (hk : h.get? k = some c) {t : Transition}
    (hn : c.state.next? .passiveOpen = some t) :
    h.listen k = .ok (.ok (), h.hold k { c.step t with state := t.after }
      ((h.link.note (.moved c.tuple c.state .passiveOpen t.during)).settle (c.step t)
        t.after)) := by
  obtain ⟨-, rfl⟩ := next?_passiveOpen hn
  have hk₁ := get?_hold_self hk (c.step (.to .listen))
    (h.link.note (.moved c.tuple c.state .passiveOpen .listen))
  unfold listen
  rw [transition_eq hk, hn]
  dsimp only [Checked.assert, Transition.to, Option.isSome_some]
  rw [if_pos rfl, if_pos rfl, Except.ok_bind, beginTransition_eq hk]
  dsimp only
  rw [Except.pure_eq, Transition.to] at *
  rw [endTransition_eq hk₁, hold_hold hk]
  rfl

omit [Arena α] in
/-- Listening carries out the transition of CLOSED, and is not permitted in other states. -/
theorem listen_cases (hk : h.get? k = some c) :
    ∃ a c' l', h.link.Opened c .passiveOpen a c' l' ∧ h.listen k = .ok (a, h.hold k c' l') := by
  cases hn : c.state.next? .passiveOpen with
  | none => exact ⟨_, _, _, .notPermitted hn, listen_notPermitted hk hn⟩
  | some t =>
    obtain ⟨-, rfl⟩ := next?_passiveOpen hn
    exact ⟨_, _, _, .carried hn (.completed (.nil _ _)), listen_eq hk hn⟩

theorem feed_stale (hk : h.get? k = none) (refusal : Option Refusal) (e : Event)
    (es : List Event) : h.feed k refusal (e :: es) = .ok (.error .noConnection, h) := by
  unfold feed
  rw [transition_stale hk]

/-- An event that is ignored leaves a note. -/
theorem feed_ignored (hk : h.get? k = some c) {e : Event} (hn : c.state.next? e = none)
    (refusal : Option Refusal) (es : List Event) :
    h.feed k refusal (e :: es) =
      (h.hold k c (h.link.note (.ignored c.tuple e c.state))).feed k refusal es := by
  conv => lhs; unfold feed
  rw [transition_eq hk, hn]
  rfl

/-- An event whose transition is completed is followed by the others. -/
theorem feed_carried (hk : h.get? k = some c) {e : Event} {t : Transition}
    (hn : c.state.next? e = some t) {r : Option Refusal} {h₁ : Host α ν}
    (he : h.carryOut k e t = .ok (answerOf r, h₁)) (refusal : Option Refusal) (es : List Event) :
    h.feed k refusal (e :: es) = h₁.feed k (refusal <|> r) es := by
  conv => lhs; unfold feed
  rw [transition_eq hk, hn]
  dsimp only [Option.isSome_some]
  rw [if_pos rfl, he, Except.ok_bind]
  cases r with
  | none => cases refusal <;> rfl
  | some r => rfl

/-- An event whose transition fails for another reason is the last. -/
theorem feed_failed (hk : h.get? k = some c) {e : Event} {t : Transition}
    (hn : c.state.next? e = some t) {h₁ : Host α ν} {e₁ : Error}
    (he : h.carryOut k e t = .ok (.error e₁, h₁)) (hown : ∀ r, e₁ ≠ .undelivered r)
    (refusal : Option Refusal) (es : List Event) :
    h.feed k refusal (e :: es) = .ok (.error e₁, h₁) := by
  unfold feed
  rw [transition_eq hk, hn]
  dsimp only [Option.isSome_some]
  rw [if_pos rfl, he]
  cases e₁ with
  | undelivered r => exact absurd rfl (hown r)
  | _ => rfl

/-- Events are fed to a record up to the first failure of the arena. -/
theorem feed_cases (hk : h.get? k = some c) (refusal : Option Refusal) (es : List Event) :
    ∃ a c' l', h.link.Fed c refusal es a c' l' ∧ h.feed k refusal es = .ok (a, h.hold k c' l') := by
  induction es generalizing h c refusal with
  | nil => exact ⟨_, c, h.link, .nil _ _ _, by rw [hold_self hk]; rfl⟩
  | cons e es ih =>
    cases hn : c.state.next? e with
    | none =>
      obtain ⟨a, c', l', hf, he⟩ :=
        ih (get?_hold_self hk c (h.link.note (.ignored c.tuple e c.state))) refusal
      rw [hold_hold hk] at he
      exact ⟨a, c', l', .ignored hn hf, (feed_ignored hk hn refusal es).trans he⟩
    | some t =>
      obtain ⟨a, c₁, l₁, hc, he⟩ := carryOut_cases hk e t
      obtain ⟨r₁, rfl⟩ | rfl := hc.answer
      · obtain ⟨a, c', l', hf, he'⟩ := ih (get?_hold_self hk c₁ l₁) (refusal <|> r₁)
        rw [hold_hold hk] at he'
        exact ⟨a, c', l', .carried hn hc hf, (feed_carried hk hn he refusal es).trans he'⟩
      · exact ⟨_, c₁, l₁, .stopped hn hc, feed_failed hk hn he (by simp) refusal es⟩

theorem receive_rejected {segment : Octets} {src dst : Address} {r : Rejection}
    (hq : Header.parse segment (h.table.policy.ends src dst) = .ok (.error r)) :
    h.receive segment src dst = .ok (.error (.rejected r), h.note (.dropped src dst r)) := by
  unfold receive
  rw [hq]
  rfl

/-- The events of an accepted segment are fed to the record under the key it is found by. -/
theorem receive_found {segment : Octets} {src dst : Address} {q : Header}
    (hq : Header.parse segment (h.table.policy.ends src dst) = .ok (.ok q)) {k : Key}
    (hf : h.table.find? src dst q.srcPort q.dstPort = some k) :
    h.receive segment src dst =
      (h.note (.received src dst q)).feed k none ((Event.ofHeader q).filterMap id) := by
  unfold receive
  rw [hq, Except.ok_bind]
  dsimp only
  rw [hf]

theorem receive_unmatched {segment : Octets} {src dst : Address} {q : Header}
    (hq : Header.parse segment (h.table.policy.ends src dst) = .ok (.ok q))
    (hf : h.table.find? src dst q.srcPort q.dstPort = none) :
    h.receive segment src dst = .ok (.ok (), h.note (.unmatched src dst q)) := by
  unfold receive
  rw [hq, Except.ok_bind]
  dsimp only
  rw [hf]
  rfl

/-- A segment is rejected, or it belongs to no connection, or its events are fed to the record
under the key it is found by. -/
theorem receive_cases (h : Host α ν) (segment : Octets) (src dst : Address) :
    (∃ r, h.receive segment src dst =
      .ok (.error (.rejected r), h.note (.dropped src dst r))) ∨
    (∃ q, h.table.find? src dst q.srcPort q.dstPort = none ∧
      h.receive segment src dst = .ok (.ok (), h.note (.unmatched src dst q))) ∨
    (∃ q k, h.table.find? src dst q.srcPort q.dstPort = some k ∧ h.get? k = none ∧
      ∃ a, a ≠ .error .noMemory ∧
        h.receive segment src dst = .ok (a, h.note (.received src dst q))) ∨
    ∃ q k c, Header.parse segment (h.table.policy.ends src dst) = .ok (.ok q) ∧
      h.table.find? src dst q.srcPort q.dstPort = some k ∧ h.get? k = some c ∧
      ∃ a c' l', (h.link.note (.received src dst q)).Fed c none
          ((Event.ofHeader q).filterMap id) a c' l' ∧
        h.receive segment src dst = .ok (a, h.hold k c' l') := by
  obtain ⟨a, hp⟩ := Header.parse_ok segment (h.table.policy.ends src dst)
  cases a with
  | error r => exact .inl ⟨r, receive_rejected hp⟩
  | ok q =>
    refine .inr ?_
    cases hf : h.table.find? src dst q.srcPort q.dstPort with
    | none => exact .inl ⟨q, hf, receive_unmatched hp hf⟩
    | some k =>
      refine .inr ?_
      rw [receive_found hp hf]
      cases hk : h.get? k with
      | none =>
        refine .inl ⟨q, k, hf, hk, ?_⟩
        cases (Event.ofHeader q).filterMap id with
        | nil => exact ⟨.ok (), by simp, rfl⟩
        | cons e es =>
          have hk₁ : (h.note (.received src dst q)).get? k = none := hk
          exact ⟨.error .noConnection, by simp, feed_stale hk₁ none e es⟩
      | some c =>
        have hk₁ : (h.note (.received src dst q)).get? k = some c := hk
        obtain ⟨a, c', l', hd, he⟩ := feed_cases hk₁ none ((Event.ofHeader q).filterMap id)
        exact .inr ⟨q, k, c, hp, hf, hk, a, c', l', hd, he⟩

theorem receive_ok (h : Host α ν) (segment : Octets) (src dst : Address) :
    ∃ a h', h.receive segment src dst = .ok (a, h') := by
  obtain ⟨r, he⟩ | ⟨q, -, he⟩ | ⟨q, k, -, -, a, -, he⟩ | ⟨q, k, c, -, -, -, a, c', l', -, he⟩ :=
    h.receive_cases segment src dst
  · exact ⟨_, _, he⟩
  · exact ⟨_, _, he⟩
  · exact ⟨_, _, he⟩
  · exact ⟨_, _, he⟩

end Host

end TcpEngine
