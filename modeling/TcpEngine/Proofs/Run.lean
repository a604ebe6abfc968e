import Mathlib.Data.List.Induction
import TcpEngine.Proofs.Transitions

/-!
# Runs of a host

A run is a list of calls in any order and with any arguments: the user opens, closes, reads and
changes connections and sends on them, the network layer passes in segments, and between calls the
arena and the network layer can become others. A key can be live or stale.

* `Host.call`: one call with its answer.
* `Host.run`: a list of calls, with its history.
* `Host.run_induction`: what every call keeps holds after every run, and no run faults then.
* `Host.Called`: what each call leads to. No call faults (`call_cases`).
* `Entry.Effect`: what a call does to the connection table. There are four cases: a record is
  created, a record is closed, a record is replaced, or nothing happens (`call_effect`).
* `Link.Along`: what notes and sendings of segments keep of a link, every call keeps (`call_along`).
-/

namespace TcpEngine

/-- What a host is asked for. -/
inductive Call (α ν : Type) where
  | create (remoteAddr : Address) (remotePort localPort : UInt16)
  | close (k : Key)
  | find (src dst : Address) (srcPort dstPort : UInt16)
  | get (k : Key)
  /-- The user changes a record. -/
  | edit (k : Key) (f : Connection → Connection)
  | connect (k : Key)
  | listen (k : Key)
  | send (k : Key) (flags : Flags) (payload : Octets)
  | receive (segment : Octets) (src dst : Address)
  /-- The host finds another arena and another network layer. -/
  | attach (arena : α) (network : ν)

/-- A call that works with the link as it is. -/
def Call.KeepsLink {α ν : Type} : Call α ν → Prop
  | .attach .. => False
  | _ => True

theorem Call.keepsLink_or {α ν : Type} (c : Call α ν) :
    c.KeepsLink ∨ ∃ arena network, c = .attach arena network := by
  cases c with
  | attach arena network => exact .inr ⟨arena, network, rfl⟩
  | _ => exact .inl trivial

/-- The answer to a call. -/
inductive Answer where
  | key (a : Except Error Key)
  | found (k : Option Key)
  | record (c : Option Connection)
  | done (a : Except Error Unit)
  | nothing

/-- A call in a history, with the host that it was made to. -/
structure Entry (α ν : Type) where
  before : Host α ν
  call : Call α ν
  answer : Answer

/-- The calls of a run, the last one first. -/
abbrev History (α ν : Type) := List (Entry α ν)

namespace Host

variable {α ν : Type}

/-- The host with the record of the key `k`, if there is one, changed by `f`. -/
def edit (h : Host α ν) (k : Key) (f : Connection → Connection) : Host α ν :=
  { h with table := (h.table.modify k f).getD h.table }

/-- The host with another arena and another network layer. -/
def attach (h : Host α ν) (arena : α) (network : ν) : Host α ν :=
  { h with link := { h.link with arena, network } }

variable [Arena α] [Network ν]

/-- One call, and its answer. -/
def call (h : Host α ν) : Call α ν → Checked (Answer × Host α ν)
  | .create remoteAddr remotePort localPort => do
    let (a, h) ← h.create remoteAddr remotePort localPort
    return (.key a, h)
  | .close k => do
    let h ← h.close k
    return (.nothing, h)
  | .find src dst srcPort dstPort => .ok (.found (h.table.find? src dst srcPort dstPort), h)
  | .get k => .ok (.record (h.get? k), h)
  | .edit k f => .ok (.nothing, h.edit k f)
  | .connect k => do
    let (a, h) ← h.connect k
    return (.done a, h)
  | .listen k => do
    let (a, h) ← h.listen k
    return (.done a, h)
  | .send k flags payload => do
    let (a, h) ← h.send k flags payload
    return (.done a, h)
  | .receive segment src dst => do
    let (a, h) ← h.receive segment src dst
    return (.done a, h)
  | .attach arena network => .ok (.nothing, h.attach arena network)

/-- A call at the end of a run. -/
def next (r : History α ν × Host α ν) (c : Call α ν) : Checked (History α ν × Host α ν) := do
  let (a, h) ← r.2.call c
  return (⟨r.2, c, a⟩ :: r.1, h)

/-- The calls `cs` one after the other. -/
def run (h : Host α ν) (cs : List (Call α ν)) : Checked (History α ν × Host α ν) :=
  cs.foldlM next ([], h)

theorem run_snoc (h : Host α ν) (cs : List (Call α ν)) (c : Call α ν) :
    h.run (cs ++ [c]) = h.run cs >>= fun r => next r c := by
  unfold run
  rw [List.foldlM_append]
  congr 1
  funext r
  rw [List.foldlM_cons]
  cases next r c <;> rfl

/-- A run goes on behind a history as it would without it. -/
theorem run_behind (log : History α ν) (h : Host α ν) (cs : List (Call α ν)) :
    cs.foldlM next (log, h) = h.run cs >>= fun r => .ok (r.1 ++ log, r.2) := by
  induction cs generalizing log h with
  | nil => rfl
  | cons c cs ih =>
    unfold run
    rw [List.foldlM_cons, List.foldlM_cons]
    cases he : h.call c with
    | error e => simp [next, he]
    | ok ah =>
      obtain ⟨a, g⟩ := ah
      have hnext (log : History α ν) : next (log, h) c = .ok (⟨h, c, a⟩ :: log, g) := by
        simp [next, he]
      rw [hnext, hnext, Except.ok_bind, Except.ok_bind, ih, ih [_]]
      cases g.run cs <;> simp

theorem run_cons {h g g' : Host α ν} {c : Call α ν} {cs : List (Call α ν)} {a : Answer}
    {log : History α ν} (he : h.call c = .ok (a, g)) (hr : g.run cs = .ok (log, g')) :
    h.run (c :: cs) = .ok (log ++ [⟨h, c, a⟩], g') := by
  have hnext : next ([], h) c = .ok ([⟨h, c, a⟩], g) := by
    unfold next
    rw [he]
    rfl
  unfold run
  rw [List.foldlM_cons, hnext, Except.ok_bind, run_behind, hr]
  rfl

/-- What holds at the start, and after every call if it held before, holds after a run. -/
theorem run_induction {P : History α ν → Host α ν → Prop} {h₀ : Host α ν} {cs : List (Call α ν)}
    (start : P [] h₀)
    (step : ∀ log h, ∀ c ∈ cs, P log h → ∃ a h', h.call c = .ok (a, h') ∧ P (⟨h, c, a⟩ :: log) h') :
    ∃ log h, h₀.run cs = .ok (log, h) ∧ P log h := by
  induction cs using List.reverseRecOn with
  | nil => exact ⟨[], h₀, rfl, start⟩
  | append_singleton cs c ih =>
    obtain ⟨log, h, hr, hp⟩ := ih fun log h c hc => step log h c (List.mem_append_left _ hc)
    obtain ⟨a, h', he, hp'⟩ := step log h c (List.mem_append_right _ (List.mem_singleton_self c)) hp
    refine ⟨⟨h, c, a⟩ :: log, h', ?_, hp'⟩
    rw [run_snoc, hr, Except.ok_bind]
    unfold next
    rw [he]
    rfl

end Host

namespace Entry

variable {α ν : Type}

/-- The record that the call created: its key and its four-tuple. -/
def created? (e : Entry α ν) : Option (Key × FourTuple) :=
  match e.call, e.answer with
  | .create remoteAddr remotePort localPort, .key (.ok k) =>
    some (k, e.before.table.tupleTo remoteAddr remotePort localPort)
  | _, _ => none

/-- The key of the record that the call closed. -/
def closed? (e : Entry α ν) : Option Key :=
  match e.call with
  | .close k => if (e.before.get? k).isSome then some k else none
  | _ => none

theorem closed?_eq_some {e : Entry α ν} {k : Key} :
    e.closed? = some k ↔ e.call = .close k ∧ ∃ c, e.before.get? k = some c := by
  unfold closed?
  constructor
  · intro h
    split at h
    · rename_i k' hc
      split at h
      · rename_i hl
        cases h
        exact ⟨hc, Option.isSome_iff_exists.mp hl⟩
      · cases h
    · cases h
  · rintro ⟨hc, c, hk⟩
    simp [hc, hk]

/-- What a call does to the connection table. -/
inductive Effect (e : Entry α ν) : ConnectionTable → Prop
  | created {k : Key} {u : FourTuple} {m : SlotMap Connection} : e.created? = some (k, u) →
    e.closed? = none → e.before.table.index.find? u = none →
    e.before.table.records.Inserted (.new u e.before.table.nextSeq) k m →
    e.Effect (e.before.table.enroll u k m)
  | closed {k : Key} {c : Connection} {m : SlotMap Connection} : e.created? = none →
    e.closed? = some k → e.before.get? k = some c → e.before.table.records.Removed k m →
    e.Effect (e.before.table.drop c.tuple m)
  | replaced {k : Key} {c c' : Connection} : e.created? = none → e.closed? = none →
    e.before.get? k = some c → c'.fixed = c.fixed ∨ (∃ f, e.call = .edit k f ∧ c' = f c) →
    e.Effect (e.before.table.put k c')
  | kept : e.created? = none → e.closed? = none → e.Effect e.before.table

theorem Effect.settings {e : Entry α ν} {t : ConnectionTable} (h : e.Effect t) :
    t.settings = e.before.table.settings := by
  cases h with
  | created _ _ _ hm => simp [ConnectionTable.settings, ConnectionTable.enroll, hm.capacity]
  | closed _ _ _ hm => simp [ConnectionTable.settings, ConnectionTable.drop, hm.capacity]
  | replaced _ _ _ _ => exact ConnectionTable.settings_put ..
  | kept _ _ => rfl

end Entry

namespace Host

variable {α ν : Type}

@[simp] theorem table_notes (h : Host α ν) (ns : List Note) : (h.notes ns).table = h.table := by
  unfold notes
  induction ns generalizing h with
  | nil => rfl
  | cons n ns ih => exact ih (h.note n)

theorem edit_live {h : Host α ν} {k : Key} {c : Connection} (hk : h.get? k = some c)
    (f : Connection → Connection) : h.edit k f = h.put k (f c) := by
  have hk' : h.table.records.get? k = some c := hk
  simp [edit, put, ConnectionTable.put, ConnectionTable.modify, SlotMap.modify_eq, hk']

theorem edit_stale {h : Host α ν} {k : Key} (hk : h.get? k = none)
    (f : Connection → Connection) : h.edit k f = h := by
  have hk' : h.table.records.get? k = none := hk
  simp [edit, ConnectionTable.modify, SlotMap.modify_eq, hk']

variable [Arena α] [Network ν]

omit [Arena α] in
/-- What a call to the host `h` leads to: its answer and the host afterwards. -/
inductive Called (h : Host α ν) : Call α ν → Answer → Host α ν → Prop
  | present {remoteAddr : Address} {remotePort localPort : UInt16} {k : Key} :
    h.table.index.find? (h.table.tupleTo remoteAddr remotePort localPort) = some k →
    Called h (.create remoteAddr remotePort localPort) (.key (.error .notPermitted))
      (h.note (.present (h.table.tupleTo remoteAddr remotePort localPort)))
  | noSlot {remoteAddr : Address} {remotePort localPort : UInt16} :
    h.table.index.find? (h.table.tupleTo remoteAddr remotePort localPort) = none →
    h.table.records.capacity.toNat ≤ h.table.len →
    Called h (.create remoteAddr remotePort localPort) (.key (.error .noMemory))
      (h.note (.noSlot (h.table.tupleTo remoteAddr remotePort localPort)))
  | created {remoteAddr : Address} {remotePort localPort : UInt16} {k : Key}
    {m : SlotMap Connection} :
    h.table.index.find? (h.table.tupleTo remoteAddr remotePort localPort) = none →
    h.table.records.Inserted (.new (h.table.tupleTo remoteAddr remotePort localPort)
      h.table.nextSeq) k m →
    Called h (.create remoteAddr remotePort localPort) (.key (.ok k))
      ({ h with table := h.table.enroll (h.table.tupleTo remoteAddr remotePort localPort) k m }.note
        (.created (h.table.tupleTo remoteAddr remotePort localPort) h.table.nextSeq))
  | closed {k : Key} {c : Connection} {m : SlotMap Connection} : h.get? k = some c →
    h.table.records.Removed k m → Called h (.close k) .nothing
      ({ h with table := h.table.drop c.tuple m }.note (.closed c.tuple c.state))
  | closedStale {k : Key} : h.get? k = none → Called h (.close k) .nothing h
  | found (src dst : Address) (srcPort dstPort : UInt16) : Called h (.find src dst srcPort dstPort)
      (.found (h.table.find? src dst srcPort dstPort)) h
  | got (k : Key) : Called h (.get k) (.record (h.get? k)) h
  | edited {k : Key} {c : Connection} (f : Connection → Connection) : h.get? k = some c →
    Called h (.edit k f) .nothing (h.put k (f c))
  | editedStale {k : Key} (f : Connection → Connection) : h.get? k = none →
    Called h (.edit k f) .nothing h
  | connected {k : Key} {c c' : Connection} {a : Except Error Unit} {l' : Link α ν} :
    h.get? k = some c → h.link.Opened c .activeOpen a c' l' →
    Called h (.connect k) (.done a) (h.hold k c' l')
  | connectedStale {k : Key} : h.get? k = none →
    Called h (.connect k) (.done (.error .noConnection)) h
  | listened {k : Key} {c c' : Connection} {a : Except Error Unit} {l' : Link α ν} :
    h.get? k = some c → h.link.Opened c .passiveOpen a c' l' →
    Called h (.listen k) (.done a) (h.hold k c' l')
  | listenedStale {k : Key} : h.get? k = none →
    Called h (.listen k) (.done (.error .noConnection)) h
  | sent {k : Key} {c c' : Connection} {flags : Flags} {payload : Octets}
    {a : Except Error Unit} {l' : Link α ν} : h.get? k = some c →
    h.link.Sent c flags payload a c' l' →
    Called h (.send k flags payload) (.done a) (h.hold k c' l')
  | sentStale {k : Key} (flags : Flags) (payload : Octets) : h.get? k = none →
    Called h (.send k flags payload) (.done (.error .noConnection)) h
  /-- The segment is rejected, or there is no record for it. -/
  | dropped {segment : Octets} {src dst : Address} {a : Except Error Unit} {n : Note} :
    Called h (.receive segment src dst) (.done a) (h.note n)
  | received {segment : Octets} {src dst : Address} {q : Header} {k : Key} {c c' : Connection}
    {a : Except Error Unit} {l' : Link α ν} :
    h.table.find? src dst q.srcPort q.dstPort = some k → h.get? k = some c →
    (h.link.note (.received src dst q)).Fed c none ((Event.ofHeader q).filterMap id) a c' l' →
    Called h (.receive segment src dst) (.done a) (h.hold k c' l')
  | attached (arena : α) (network : ν) :
    Called h (.attach arena network) .nothing (h.attach arena network)

/-- A call does not fault. -/
theorem call_cases {h : Host α ν} (hw : h.table.records.WellFormed) (c : Call α ν) :
    ∃ a h', h.call c = .ok (a, h') ∧ h.Called c a h' := by
  unfold call
  cases c with
  | create remoteAddr remotePort localPort =>
    unfold create
    dsimp only
    obtain ⟨⟨k, hf⟩, he⟩ | ⟨hf, hfull, he⟩ | ⟨hf, k, m, hm, he⟩ :=
      ConnectionTable.create_cases hw remoteAddr remotePort localPort
    · rw [he]; exact ⟨_, _, rfl, .present hf⟩
    · rw [he]; exact ⟨_, _, rfl, .noSlot hf hfull⟩
    · rw [he]; exact ⟨_, _, rfl, .created hf hm⟩
  | close k =>
    unfold close
    dsimp only
    cases hk : h.get? k with
    | none => rw [ConnectionTable.close_stale hk]; exact ⟨_, _, rfl, .closedStale hk⟩
    | some c =>
      obtain ⟨m, hm, he⟩ := ConnectionTable.close_live hw hk
      rw [he]
      exact ⟨_, _, rfl, .closed hk hm⟩
  | find src dst srcPort dstPort => exact ⟨_, _, rfl, .found src dst srcPort dstPort⟩
  | get k => exact ⟨_, _, rfl, .got k⟩
  | edit k f =>
    dsimp only
    cases hk : h.get? k with
    | none => rw [edit_stale hk]; exact ⟨_, _, rfl, .editedStale f hk⟩
    | some c => rw [edit_live hk]; exact ⟨_, _, rfl, .edited f hk⟩
  | connect k =>
    dsimp only
    cases hk : h.get? k with
    | none => rw [connect_stale hk]; exact ⟨_, _, rfl, .connectedStale hk⟩
    | some c =>
      obtain ⟨a, c', l', ho, he⟩ := connect_cases hk
      rw [he]
      exact ⟨_, _, rfl, .connected hk ho⟩
  | listen k =>
    dsimp only
    cases hk : h.get? k with
    | none => rw [listen_stale hk]; exact ⟨_, _, rfl, .listenedStale hk⟩
    | some c =>
      obtain ⟨a, c', l', ho, he⟩ := listen_cases hk
      rw [he]
      exact ⟨_, _, rfl, .listened hk ho⟩
  | send k flags payload =>
    dsimp only
    cases hk : h.get? k with
    | none => rw [send_stale hk]; exact ⟨_, _, rfl, .sentStale flags payload hk⟩
    | some c =>
      obtain ⟨a, c', l', hs, he⟩ := send_cases hk flags payload
      rw [he]
      exact ⟨_, _, rfl, .sent hk hs⟩
  | receive segment src dst =>
    dsimp only
    obtain ⟨r, he⟩ | ⟨q, -, he⟩ | ⟨q, k, -, -, a, -, he⟩ |
      ⟨q, k, c, -, hf, hk, a, c', l', hd, he⟩ := h.receive_cases segment src dst
    · rw [he]; exact ⟨_, _, rfl, .dropped⟩
    · rw [he]; exact ⟨_, _, rfl, .dropped⟩
    · rw [he]; exact ⟨_, _, rfl, .dropped⟩
    · rw [he]; exact ⟨_, _, rfl, .received hf hk hd⟩
  | attach arena network => exact ⟨_, _, rfl, .attached arena network⟩

omit [Arena α] in
theorem Called.effect {h h' : Host α ν} {c : Call α ν} {a : Answer} (hc : h.Called c a h') :
    (Entry.mk h c a).Effect h'.table := by
  cases hc with
  | present _ => exact .kept rfl rfl
  | noSlot _ _ => exact .kept rfl rfl
  | created hf hm => exact .created rfl rfl hf hm
  | closed hk hm => exact .closed rfl (by simp [Entry.closed?, hk]) hk hm
  | closedStale hk => exact .kept rfl (by simp [Entry.closed?, hk])
  | found _ _ _ _ => exact .kept rfl rfl
  | got _ => exact .kept rfl rfl
  | edited f hk => exact .replaced rfl rfl hk (.inr ⟨f, rfl, rfl⟩)
  | editedStale _ _ => exact .kept rfl rfl
  | connected hk ho => exact .replaced rfl rfl hk (.inl ho.fixed)
  | connectedStale _ => exact .kept rfl rfl
  | listened hk ho => exact .replaced rfl rfl hk (.inl ho.fixed)
  | listenedStale _ => exact .kept rfl rfl
  | sent hk hs => exact .replaced rfl rfl hk (.inl hs.fixed)
  | sentStale _ _ _ => exact .kept rfl rfl
  | dropped => exact .kept rfl rfl
  | received _ hk hf => exact .replaced rfl rfl hk (.inl hf.fixed)
  | attached _ _ => exact .kept rfl rfl

/-- A call does not fault, and has one of the four effects. -/
theorem call_effect {h : Host α ν} (hw : h.table.records.WellFormed) (c : Call α ν) :
    ∃ a h', h.call c = .ok (a, h') ∧ (Entry.mk h c a).Effect h'.table := by
  obtain ⟨a, h', he, hc⟩ := call_cases hw c
  exact ⟨a, h', he, hc.effect⟩

end Host

/-! ## Links -/

section

variable {α ν : Type} [Arena α] [Network ν]

/-- A relation between links that holds along notes and along sendings of segments. -/
structure Link.Along (R : Link α ν → Link α ν → Prop) : Prop where
  refl (l : Link α ν) : R l l
  trans {l₁ l₂ l₃ : Link α ν} : R l₁ l₂ → R l₂ l₃ → R l₁ l₃
  note (l : Link α ν) (n : Note) : R l (l.note n)
  send {l l' : Link α ν} {c c' : Connection} {f : Flags} {p : Octets} {a : Except Error Unit} :
    l.send c f p = .ok (a, c', l') → R l l'

namespace Host

variable {R : Link α ν → Link α ν → Prop} {h h' : Host α ν} {k : Key} {a : Except Error Unit}

theorem notes_along (hR : Link.Along R) (h : Host α ν) (ns : List Note) :
    R h.link (h.notes ns).link := by
  induction ns generalizing h with
  | nil => exact hR.refl _
  | cons n ns ih => exact hR.trans (hR.note h.link n) (ih (h.note n))

theorem transition_along (hR : Link.Along R) (h : Host α ν) (k : Key) (e : Event) :
    R h.link (h.transition k e).2.link := by
  unfold transition
  split
  · exact hR.refl _
  · split
    · exact hR.note _ _
    · exact hR.refl _

theorem beginTransition_along (hR : Link.Along R) (h : Host α ν) (k : Key) (e : Event)
    (t : Transition) : R h.link (h.beginTransition k e t).2.link := by
  unfold beginTransition
  split
  · exact hR.refl _
  · exact hR.note _ _

theorem endTransition_along (hR : Link.Along R) (h : Host α ν) (k : Key) (s : State) :
    R h.link (h.endTransition k s).2.link := by
  unfold endTransition
  split
  · exact hR.refl _
  · split
    · exact hR.refl _
    · exact hR.note _ _

theorem send_along (hR : Link.Along R) {f : Flags} {p : Octets}
    (he : h.send k f p = .ok (a, h')) : R h.link h'.link := by
  unfold send at he
  split at he
  · cases he
    exact hR.refl _
  · obtain ⟨⟨a₁, c', l'⟩, hs, he⟩ := Except.bind_eq_ok.mp he
    cases he
    exact hR.send hs

theorem reply_along (hR : Link.Along R) {snapshot : Connection} {first : Bool}
    {refusal : Option Refusal} {fs : List Flags} {a : Except Error (Option Refusal)}
    (he : h.reply k snapshot first refusal fs = .ok (a, h')) : R h.link h'.link := by
  induction fs generalizing h first refusal with
  | nil =>
    cases he
    exact hR.refl _
  | cons f fs ih =>
    unfold reply at he
    obtain ⟨⟨a₁, h₁⟩, hs, he⟩ := Except.bind_eq_ok.mp he
    have hsent := send_along hR hs
    cases a₁ with
    | ok _ => exact hR.trans hsent (ih he)
    | error e =>
      cases e with
      | undelivered e => exact hR.trans hsent (ih he)
      | _ => cases he; cases first <;> exact hsent

theorem carryOut_along (hR : Link.Along R) {e : Event} {t : Transition}
    (he : h.carryOut k e t = .ok (a, h')) : R h.link h'.link := by
  have hbegin := beginTransition_along hR h k e t
  unfold carryOut at he
  generalize h.beginTransition k e t = begun at hbegin he
  obtain ⟨_ | snapshot, h₁⟩ := begun
  · cases he
    exact hbegin
  · obtain ⟨⟨_ | r, h₂⟩, hr, he⟩ := Except.bind_eq_ok.mp he
    · cases he
      exact hR.trans hbegin (reply_along hR hr)
    · have hend := endTransition_along hR h₂ k t.after
      have hreply := hR.trans hbegin (reply_along hR hr)
      dsimp only at he
      generalize h₂.endTransition k t.after = ended at hend he
      obtain ⟨_ | _, h₃⟩ := ended
      · cases he
        exact hR.trans hreply hend
      · cases he
        exact hR.trans hreply hend

theorem connect_along (hR : Link.Along R) (he : h.connect k = .ok (a, h')) :
    R h.link h'.link := by
  have ht := transition_along hR h k .activeOpen
  unfold connect at he
  generalize h.transition k .activeOpen = row at ht he
  obtain ⟨_ | _ | t, h₁⟩ := row
  · cases he
    exact ht
  · cases he
    exact ht
  · exact hR.trans ht (carryOut_along hR he)

theorem listen_along (hR : Link.Along R) (he : h.listen k = .ok (a, h')) :
    R h.link h'.link := by
  have ht := transition_along hR h k .passiveOpen
  unfold listen at he
  generalize h.transition k .passiveOpen = row at ht he
  obtain ⟨_ | _ | t, h₁⟩ := row
  · cases he
    exact ht
  · cases he
    exact ht
  · obtain ⟨_, -, he⟩ := Except.bind_eq_ok.mp he
    have hbegin := beginTransition_along hR h₁ k .passiveOpen t
    generalize h₁.beginTransition k .passiveOpen t = begun at hbegin he
    obtain ⟨_ | snapshot, h₂⟩ := begun
    · cases he
      exact hR.trans ht hbegin
    · have hend := endTransition_along hR h₂ k t.after
      rw [Except.ok.inj he] at hend
      exact hR.trans (hR.trans ht hbegin) hend

theorem feed_along (hR : Link.Along R) {refusal : Option Refusal} {es : List Event}
    (he : h.feed k refusal es = .ok (a, h')) : R h.link h'.link := by
  induction es generalizing h refusal with
  | nil =>
    cases he
    exact hR.refl _
  | cons e es ih =>
    have ht := transition_along hR h k e
    unfold feed at he
    generalize h.transition k e = row at ht he
    obtain ⟨_ | _ | t, h₁⟩ := row
    · cases he
      exact ht
    · exact hR.trans ht (ih he)
    · obtain ⟨⟨a₁, h₂⟩, hc, he⟩ := Except.bind_eq_ok.mp he
      have hcarried := hR.trans ht (carryOut_along hR hc)
      cases a₁ with
      | ok _ => exact hR.trans hcarried (ih he)
      | error e =>
        cases e with
        | undelivered e => exact hR.trans hcarried (ih he)
        | _ => cases he; exact hcarried

theorem receive_along (hR : Link.Along R) {segment : Octets} {src dst : Address}
    (he : h.receive segment src dst = .ok (a, h')) : R h.link h'.link := by
  unfold receive at he
  obtain ⟨_ | q, -, he⟩ := Except.bind_eq_ok.mp he
  · cases he
    exact hR.note _ _
  · dsimp only at he
    split at he
    · cases he
      exact hR.note _ _
    · exact hR.trans (hR.note h.link (.received src dst q)) (feed_along hR he)

theorem stop_along (hR : Link.Along R) {n : Nat} {l : Link α ν} (he : h.stop = .ok (n, l)) :
    R h.link l := by
  unfold stop at he
  obtain ⟨⟨n, ns⟩, -, he⟩ := Except.bind_eq_ok.mp he
  cases he
  exact notes_along hR h ns

/-- What notes and sendings keep, every call keeps. -/
theorem call_along (hR : Link.Along R) {c : Call α ν} (hc : c.KeepsLink) {a : Answer}
    (he : h.call c = .ok (a, h')) : R h.link h'.link := by
  unfold call at he
  cases c with
  | create remoteAddr remotePort localPort =>
    obtain ⟨⟨a₁, h₁⟩, hx, he⟩ := Except.bind_eq_ok.mp he
    obtain ⟨⟨a₂, t, n⟩, -, hx⟩ := Except.bind_eq_ok.mp hx
    cases hx
    cases he
    exact hR.note _ _
  | close k =>
    obtain ⟨h₁, hx, he⟩ := Except.bind_eq_ok.mp he
    obtain ⟨⟨t, ns⟩, -, hx⟩ := Except.bind_eq_ok.mp hx
    cases hx
    cases he
    exact notes_along hR { h with table := t } ns
  | find _ _ _ _ => cases he; exact hR.refl _
  | get _ => cases he; exact hR.refl _
  | edit _ _ => cases he; exact hR.refl _
  | connect k =>
    obtain ⟨⟨a₁, h₁⟩, hx, he⟩ := Except.bind_eq_ok.mp he
    cases he
    exact connect_along hR hx
  | listen k =>
    obtain ⟨⟨a₁, h₁⟩, hx, he⟩ := Except.bind_eq_ok.mp he
    cases he
    exact listen_along hR hx
  | send k f p =>
    obtain ⟨⟨a₁, h₁⟩, hx, he⟩ := Except.bind_eq_ok.mp he
    cases he
    exact send_along hR hx
  | receive segment src dst =>
    obtain ⟨⟨a₁, h₁⟩, hx, he⟩ := Except.bind_eq_ok.mp he
    cases he
    exact receive_along hR hx
  | attach _ _ => exact hc.elim

end Host

end

end TcpEngine
