import TcpEngine.Proofs.Transitions

/-!
# Hosts that agree on a record

What an operation does to a record is decided by the record, and by what the arena and the network
layer say. Two hosts can differ in everything else: as long as they have the same record under a
key, and their arenas and network layers answer alike, the operation gives the same answer on both
and leaves the same record.

* `Arena.Bisimulation`, `Network.Bisimulation`: arenas and network layers that answer alike, now
  and later. Two links that have such (`Link.Match`) send in the same way (`Link.Match.send`).
* `Host.Agree`: an operation has done the same on both hosts. Sending, connecting, listening and
  receiving do (`Host.send_agree`, `Host.connect_agree`, `Host.listen_agree`, `Host.feed_agree`,
  `Host.receive_agree`).
-/

namespace TcpEngine

/-! ## Links -/

/-- Related arenas give the same buffers, and are related afterwards. -/
structure Arena.Bisimulation {α : Type} [Arena α] (R : α → α → Prop) : Prop where
  allocate {a b : α} (n : Nat) : R a b →
    (Arena.allocate a n).1 = (Arena.allocate b n).1 ∧
      R (Arena.allocate a n).2 (Arena.allocate b n).2
  release {a b : α} (x : Octets) : R a b → R (Arena.release a x) (Arena.release b x)

/-- Related network layers give the same answers, and are related afterwards. -/
structure Network.Bisimulation {ν : Type} [Network ν] (R : ν → ν → Prop) : Prop where
  deliver {m n : ν} (dst : Address) (protocol : Protocol) (b : Octets) : R m n →
    (Network.deliver m dst protocol b).1 = (Network.deliver n dst protocol b).1 ∧
      R (Network.deliver m dst protocol b).2 (Network.deliver n dst protocol b).2

theorem Arena.bisimulation_eq {α : Type} [Arena α] : Arena.Bisimulation (Eq : α → α → Prop) where
  allocate n h := by
    cases h
    exact ⟨rfl, rfl⟩
  release x h := congrArg (Arena.release · x) h

theorem Network.bisimulation_eq {ν : Type} [Network ν] :
    Network.Bisimulation (Eq : ν → ν → Prop) where
  deliver dst protocol b h := by
    cases h
    exact ⟨rfl, rfl⟩

section

variable {α ν : Type} {Ra : α → α → Prop} {Rn : ν → ν → Prop}

/-- Two links with related arenas and network layers. Their journals can differ. -/
structure Link.Match (Ra : α → α → Prop) (Rn : ν → ν → Prop) (l m : Link α ν) : Prop where
  arena : Ra l.arena m.arena
  network : Rn l.network m.network

/-- Related arenas give one and the same buffer, or none. -/
theorem Arena.Bisimulation.exists_allocate [Arena α] (hR : Arena.Bisimulation Ra) {a b : α}
    (n : Nat) (h : Ra a b) :
    ∃ buf a' b', Arena.allocate a n = (buf, a') ∧ Arena.allocate b n = (buf, b') ∧ Ra a' b' := by
  obtain ⟨hbuf, hrel⟩ := hR.allocate n h
  generalize Arena.allocate a n = x at hbuf hrel ⊢
  generalize Arena.allocate b n = y at hbuf hrel ⊢
  obtain ⟨buf, a'⟩ := x
  obtain ⟨_, b'⟩ := y
  cases hbuf
  exact ⟨buf, a', b', rfl, rfl, hrel⟩

/-- Related network layers give one and the same answer. -/
theorem Network.Bisimulation.exists_deliver [Network ν] (hR : Network.Bisimulation Rn) {m n : ν}
    (dst : Address) (protocol : Protocol) (b : Octets) (h : Rn m n) :
    ∃ a m' n', Network.deliver m dst protocol b = (a, m') ∧
      Network.deliver n dst protocol b = (a, n') ∧ Rn m' n' := by
  obtain ⟨hanswer, hrel⟩ := hR.deliver dst protocol b h
  generalize Network.deliver m dst protocol b = x at hanswer hrel ⊢
  generalize Network.deliver n dst protocol b = y at hanswer hrel ⊢
  obtain ⟨answer, m'⟩ := x
  obtain ⟨_, n'⟩ := y
  cases hanswer
  exact ⟨answer, m', n', rfl, rfl, hrel⟩

/-- The checksum of a segment is the same with related arenas. -/
theorem Arena.Bisimulation.segmentChecksum [Arena α] (hR : Arena.Bisimulation Ra) {a b a' : α}
    (h : Ra a b) {header payload : Octets} {src dst : Address} {r : Except Error UInt16}
    (he : segmentChecksum a header payload src dst = .ok (r, a')) :
    ∃ b', segmentChecksum b header payload src dst = .ok (r, b') ∧ Ra a' b' := by
  unfold TcpEngine.segmentChecksum at he ⊢
  dsimp only at he ⊢
  split at he
  · rename_i hlong
    cases he
    rw [if_pos hlong]
    exact ⟨b, rfl, h⟩
  · rename_i hlong
    rw [if_neg hlong]
    obtain ⟨buf, a₁, b₁, ha, hb, hrel⟩ :=
      hR.exists_allocate (Checksum.pseudoHeaderLen + (header.length + payload.length)) h
    rw [ha] at he
    rw [hb]
    cases buf with
    | none =>
      cases he
      exact ⟨b₁, rfl, hrel⟩
    | some buf =>
      dsimp only at he ⊢
      split at he
      · rename_i hlen
        cases he
        rw [if_pos hlen]
        exact ⟨_, rfl, hR.release buf hrel⟩
      · rename_i hlen
        rw [if_neg hlen]
        obtain ⟨filled, hfilled, he⟩ := Except.bind_eq_ok.mp he
        obtain ⟨sum, hsum, he⟩ := Except.bind_eq_ok.mp he
        cases he
        exact ⟨_, by rw [hfilled, Except.ok_bind, hsum]; rfl, hR.release filled hrel⟩

namespace Link.Match

variable {l m l' : Link α ν} {c c' : Connection} {a : Except Error Unit}

theorem note (h : l.Match Ra Rn m) (n n' : Note) : (l.note n).Match Ra Rn (m.note n') :=
  ⟨h.arena, h.network⟩

theorem settle (h : l.Match Ra Rn m) (c : Connection) (s : State) :
    (l.settle c s).Match Ra Rn (m.settle c s) := by
  unfold Link.settle
  split
  · exact h
  · exact h.note _ _

variable [Arena α] [Network ν]

omit [Network ν] in
theorem release (hRa : Arena.Bisimulation Ra) (h : l.Match Ra Rn m) (b : Octets) :
    (l.release b).Match Ra Rn (m.release b) :=
  ⟨hRa.release b h.arena, h.network⟩

theorem handOver (hRa : Arena.Bisimulation Ra) (hRn : Network.Bisimulation Rn)
    (h : l.Match Ra Rn m) (c : Connection) (q : Header) (b : Octets) :
    ∃ a c' l' m', l.handOver c q b = (a, c', l') ∧ m.handOver c q b = (a, c', m') ∧
      l'.Match Ra Rn m' := by
  obtain ⟨answer, n, n', hl, hm, hrel⟩ :=
    hRn.exists_deliver c.tuple.remoteAddr .tcp b h.network
  have harena := hRa.release b h.arena
  unfold Link.handOver
  rw [hl, hm]
  cases answer with
  | ok _ => exact ⟨_, _, _, _, rfl, rfl, harena, hrel⟩
  | error _ => exact ⟨_, _, _, _, rfl, rfl, harena, hrel⟩

theorem finish (hRa : Arena.Bisimulation Ra) (hRn : Network.Bisimulation Rn)
    (h : l.Match Ra Rn m) {q : Header} {p b : Octets}
    (he : l.finish c q p b = .ok (a, c', l')) :
    ∃ m', m.finish c q p b = .ok (a, c', m') ∧ l'.Match Ra Rn m' := by
  unfold Link.finish at he ⊢
  obtain ⟨b, hb, he⟩ := Except.bind_eq_ok.mp he
  obtain ⟨⟨front, rest⟩, hsplit, he⟩ := Except.bind_eq_ok.mp he
  obtain ⟨⟨sum, arena⟩, hsum, he⟩ := Except.bind_eq_ok.mp he
  obtain ⟨arena', hsum', harena⟩ := hRa.segmentChecksum h.arena hsum
  rw [hb, Except.ok_bind, hsplit, Except.ok_bind]
  dsimp only
  rw [hsum', Except.ok_bind]
  have hlent : ({ l with arena } : Link α ν).Match Ra Rn { m with arena := arena' } :=
    ⟨harena, h.network⟩
  cases sum with
  | error e =>
    cases he
    exact ⟨_, rfl, (hlent.note _ _).release hRa b⟩
  | ok sum =>
    obtain ⟨b, hb, he⟩ := Except.bind_eq_ok.mp he
    obtain ⟨_, _, _, m', hl, hm, hmatch⟩ := hlent.handOver hRa hRn c q b
    dsimp only
    rw [hb, Except.ok_bind, hm]
    rw [Except.pure_eq, hl] at he
    cases he
    exact ⟨m', rfl, hmatch⟩

/-- A segment is sent in the same way on both links. -/
theorem send (hRa : Arena.Bisimulation Ra) (hRn : Network.Bisimulation Rn)
    (h : l.Match Ra Rn m) {f : Flags} {p : Octets} (he : l.send c f p = .ok (a, c', l')) :
    ∃ m', m.send c f p = .ok (a, c', m') ∧ l'.Match Ra Rn m' := by
  unfold Link.send at he ⊢
  dsimp only at he ⊢
  split at he
  · rename_i hp
    cases he
    rw [if_pos hp]
    exact ⟨_, rfl, h.note _ _⟩
  · rename_i hp
    rw [if_neg hp]
    obtain ⟨buf, arena, arena', ha, hb, harena⟩ :=
      hRa.exists_allocate (c.header f (UInt16.ofNat p.length)).bufferLen h.arena
    rw [ha] at he
    rw [hb]
    have hlent : ({ l with arena } : Link α ν).Match Ra Rn { m with arena := arena' } :=
      ⟨harena, h.network⟩
    cases buf with
    | none =>
      cases he
      exact ⟨_, rfl, hlent.note _ _⟩
    | some buf =>
      dsimp only at he ⊢
      split at he
      · rename_i hlen
        cases he
        rw [if_pos hlen]
        exact ⟨_, rfl, hlent.release hRa buf⟩
      · rename_i hlen
        rw [if_neg hlen]
        exact hlent.finish hRa hRn he

end Link.Match

end

/-! ## Hosts -/

namespace Host

section

variable {α ν β : Type} {Ra : α → α → Prop} {Rn : ν → ν → Prop} {h g : Host α ν} {k : Key}
  {c₀ : Connection}

/-- An operation on the record under the key `k` has given the answer of `x` on the host `h` and of
`y` on `g`. The answers are the same and so are the records, and the links match. -/
def Agree (Ra : α → α → Prop) (Rn : ν → ν → Prop) (k : Key) (h g : Host α ν)
    (x y : Checked (β × Host α ν)) : Prop :=
  ∃ a c l m, x = .ok (a, h.hold k c l) ∧ y = .ok (a, g.hold k c m) ∧ l.Match Ra Rn m

/-- Nothing was done. -/
theorem Agree.self (hk : h.get? k = some c₀) (hk' : g.get? k = some c₀)
    (hl : h.link.Match Ra Rn g.link) (a : β) :
    Agree Ra Rn k h g (.ok (a, h)) (.ok (a, g)) :=
  ⟨a, c₀, h.link, g.link, by rw [hold_self hk], by rw [hold_self hk'], hl⟩

/-- What was done after the record had been replaced already. -/
theorem Agree.of_hold (hk : h.get? k = some c₀) (hk' : g.get? k = some c₀) {c : Connection}
    {l m : Link α ν} {x y : Checked (β × Host α ν)}
    (ha : Agree Ra Rn k (h.hold k c l) (g.hold k c m) x y) : Agree Ra Rn k h g x y := by
  obtain ⟨a, c', l', m', hx, hy, hl⟩ := ha
  rw [hold_hold hk] at hx
  rw [hold_hold hk'] at hy
  exact ⟨a, c', l', m', hx, hy, hl⟩

end

variable {α ν : Type} [Arena α] [Network ν] {Ra : α → α → Prop} {Rn : ν → ν → Prop}
  {h g : Host α ν} {k : Key} {c : Connection}

theorem send_agree (hRa : Arena.Bisimulation Ra) (hRn : Network.Bisimulation Rn)
    (hk : h.get? k = some c) (hk' : g.get? k = some c) (hl : h.link.Match Ra Rn g.link)
    (f : Flags) (p : Octets) : Agree Ra Rn k h g (h.send k f p) (g.send k f p) := by
  obtain ⟨a, c', l', -, he⟩ := h.link.send_cases c f p
  obtain ⟨m', he', hl'⟩ := hl.send hRa hRn he
  exact ⟨a, c', l', m', send_eq hk he, send_eq hk' he', hl'⟩

theorem reply_agree (hRa : Arena.Bisimulation Ra) (hRn : Network.Bisimulation Rn)
    (hk : h.get? k = some c) (hk' : g.get? k = some c) (hl : h.link.Match Ra Rn g.link)
    (snapshot : Connection) (first : Bool) (refusal : Option Refusal) (fs : List Flags) :
    Agree Ra Rn k h g (h.reply k snapshot first refusal fs)
      (g.reply k snapshot first refusal fs) := by
  induction fs generalizing h g c first refusal with
  | nil => exact .self hk hk' hl _
  | cons f fs ih =>
    obtain ⟨a, c₁, l₁, m₁, he, he', hl₁⟩ := send_agree hRa hRn hk hk' hl f []
    obtain ⟨r, rfl⟩ | ⟨e, rfl, hown⟩ := answer_cases a
    · rw [reply_cons he, reply_cons he']
      exact (ih (get?_hold_self hk c₁ l₁) (get?_hold_self hk' c₁ m₁) hl₁ false _).of_hold hk hk'
    · -- The first reply puts the snapshot back.
      rw [reply_failed he hown, reply_failed he' hown]
      cases first with
      | false => exact ⟨_, c₁, l₁, m₁, rfl, rfl, hl₁⟩
      | true =>
        refine ⟨.error e, snapshot, l₁, m₁, ?_, ?_, hl₁⟩
        · rw [if_pos rfl, put_hold hk]
        · rw [if_pos rfl, put_hold hk']

theorem carryOut_agree (hRa : Arena.Bisimulation Ra) (hRn : Network.Bisimulation Rn)
    (hk : h.get? k = some c) (hk' : g.get? k = some c) (hl : h.link.Match Ra Rn g.link)
    (e : Event) (t : Transition) :
    Agree Ra Rn k h g (h.carryOut k e t) (g.carryOut k e t) := by
  let moved : Note := .moved c.tuple c.state e t.during
  have hbegun := get?_hold_self hk (c.step t) (h.link.note moved)
  have hbegun' := get?_hold_self hk' (c.step t) (g.link.note moved)
  obtain ⟨a, c₁, l₁, m₁, he, he', hl₁⟩ :=
    (reply_agree hRa hRn hbegun hbegun' (hl.note _ _) c true none t.replies).of_hold hk hk'
  unfold carryOut
  rw [beginTransition_eq hk, beginTransition_eq hk']
  dsimp only
  rw [he, he', Except.ok_bind, Except.ok_bind]
  cases a with
  | error e => exact ⟨_, c₁, l₁, m₁, rfl, rfl, hl₁⟩
  | ok refusal =>
    dsimp only
    rw [endTransition_eq (get?_hold_self hk c₁ l₁), endTransition_eq (get?_hold_self hk' c₁ m₁),
      hold_hold hk, hold_hold hk']
    exact ⟨_, _, _, _, rfl, rfl, hl₁.settle c₁ t.after⟩

theorem connect_agree (hRa : Arena.Bisimulation Ra) (hRn : Network.Bisimulation Rn)
    (hk : h.get? k = some c) (hk' : g.get? k = some c) (hl : h.link.Match Ra Rn g.link) :
    Agree Ra Rn k h g (h.connect k) (g.connect k) := by
  cases hn : c.state.next? .activeOpen with
  | none => exact ⟨_, _, _, _, connect_notPermitted hk hn, connect_notPermitted hk' hn, hl.note _ _⟩
  | some t =>
    rw [connect_eq hk hn, connect_eq hk' hn]
    exact carryOut_agree hRa hRn hk hk' hl .activeOpen t

omit [Arena α] [Network ν] in
theorem listen_agree (hk : h.get? k = some c) (hk' : g.get? k = some c)
    (hl : h.link.Match Ra Rn g.link) : Agree Ra Rn k h g (h.listen k) (g.listen k) := by
  cases hn : c.state.next? .passiveOpen with
  | none =>
    refine ⟨_, _, _, _, listen_notPermitted hk hn, listen_notPermitted hk' hn, hl.note _ _⟩
  | some t => exact ⟨_, _, _, _, listen_eq hk hn, listen_eq hk' hn, (hl.note _ _).settle _ _⟩

theorem feed_agree (hRa : Arena.Bisimulation Ra) (hRn : Network.Bisimulation Rn)
    (hk : h.get? k = some c) (hk' : g.get? k = some c) (hl : h.link.Match Ra Rn g.link)
    (refusal : Option Refusal) (es : List Event) :
    Agree Ra Rn k h g (h.feed k refusal es) (g.feed k refusal es) := by
  induction es generalizing h g c refusal with
  | nil => exact .self hk hk' hl _
  | cons e es ih =>
    cases hn : c.state.next? e with
    | none =>
      rw [feed_ignored hk hn, feed_ignored hk' hn]
      exact (ih (get?_hold_self hk c _) (get?_hold_self hk' c _) (hl.note _ _) refusal).of_hold
        hk hk'
    | some t =>
      obtain ⟨a, c₁, l₁, m₁, he, he', hl₁⟩ := carryOut_agree hRa hRn hk hk' hl e t
      obtain ⟨r, rfl⟩ | ⟨e₁, rfl, hown⟩ := answer_cases a
      · rw [feed_carried hk hn he, feed_carried hk' hn he']
        exact (ih (get?_hold_self hk c₁ l₁) (get?_hold_self hk' c₁ m₁) hl₁ _).of_hold hk hk'
      · rw [feed_failed hk hn he hown, feed_failed hk' hn he' hown]
        exact ⟨_, c₁, l₁, m₁, rfl, rfl, hl₁⟩

/-- A segment leads to the same record as long as the registrations and the checksum policy are the
same. -/
theorem receive_agree (hRa : Arena.Bisimulation Ra) (hRn : Network.Bisimulation Rn)
    (hk : h.get? k = some c) (hk' : g.get? k = some c) (hl : h.link.Match Ra Rn g.link)
    (hindex : g.table.index = h.table.index) (hpolicy : g.table.policy = h.table.policy)
    {segment : Octets} {src dst : Address} {q : Header}
    (hq : Header.parse segment (h.table.policy.ends src dst) = .ok (.ok q))
    (hf : h.table.find? src dst q.srcPort q.dstPort = some k) :
    Agree Ra Rn k h g (h.receive segment src dst) (g.receive segment src dst) := by
  have hq' : Header.parse segment (g.table.policy.ends src dst) = .ok (.ok q) := by
    rw [hpolicy, hq]
  have hf' : g.table.find? src dst q.srcPort q.dstPort = some k := by
    rw [← hf]
    unfold ConnectionTable.find?
    rw [hindex]
  rw [receive_found hq hf, receive_found hq' hf']
  have hnoted : (h.note (.received src dst q)).get? k = some c := hk
  have hnoted' : (g.note (.received src dst q)).get? k = some c := hk'
  exact feed_agree hRa hRn hnoted hnoted' (hl.note _ _) none _

end Host

end TcpEngine
