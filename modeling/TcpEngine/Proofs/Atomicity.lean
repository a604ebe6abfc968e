import TcpEngine.Arena.Scripted
import TcpEngine.Network.Outbox
import TcpEngine.Proofs.Registry

/-!
# Failed calls of the user

Creating, opening and sending fail for a few reasons, and each has its own error. Unless it is the
network layer that refuses a segment, a call that fails leaves the connection table and the network
layer as they were.

* `Host.Atomic`: an answer, and the host after it.
* `Link.Carried.atomic`: a transition with no more than one reply is carried out, or it leaves no
  trace. The transitions of the user have no more (`State.replies_open`).
* `Link.Opened.notPermitted_iff`, `Link.Sent.tooLarge_iff`: what the errors mean.
* `Host.user_calls_atomic`: all calls of the user, after any run.
-/

namespace TcpEngine

/-- A transition that the user asks for has one reply at most. -/
theorem State.replies_open {s : State} {e : Event} {t : Transition} (h : s.next? e = some t)
    (he : e = .activeOpen ∨ e = .passiveOpen) : t.replies.length ≤ 1 := by
  obtain rfl | rfl := he
  · cases s <;> cases h
    exact Nat.le_refl _
  · cases s <;> cases h
    exact Nat.zero_le _

/-- The user can open a connection in CLOSED only. -/
theorem State.next?_open_eq_none_iff {s : State} {e : Event}
    (he : e = .activeOpen ∨ e = .passiveOpen) : s.next? e = none ↔ s ≠ .closed := by
  obtain rfl | rfl := he
  · cases s <;> simp [State.next?]
  · cases s <;> simp [State.next?]

/-! ## Opening and sending -/

namespace Link

variable {α ν : Type} [Network ν] {l l' : Link α ν} {c c' : Connection} {a : Except Error Unit}

/-- The record and the network layer are as before, if the answer is another error than a refusal. -/
def Atomic (l : Link α ν) (c : Connection) (a : Except Error Unit) (c' : Connection)
    (l' : Link α ν) : Prop :=
  ∀ e, a = .error e → (∀ r, e ≠ .undelivered r) → c' = c ∧ l'.network = l.network

omit [Network ν] in
/-- An answer that at worst tells of a refusal says nothing about the record. -/
theorem atomic_answerOf (l : Link α ν) (c : Connection) (r : Option Refusal) (c' : Connection)
    (l' : Link α ν) : l.Atomic c (Host.answerOf r) c' l' := by
  intro e he hown
  cases r with
  | none => cases he
  | some r => cases he; exact absurd rfl (hown r)

theorem Carried.atomic {e : Event} {t : Transition} (h : l.Carried c e t a c' l')
    (ht : t.replies.length ≤ 1) : l.Atomic c a c' l' := by
  cases h with
  | completed _ => exact atomic_answerOf _ _ _ _ _
  | undone _ hu => exact fun _ _ _ => ⟨rfl, hu.network⟩
  | @halted sent f rest _ _ _ _ hfs hne _ _ =>
    -- The reply that was sent and the one that was not built would be two.
    rw [hfs, List.length_append, List.length_cons] at ht
    exact absurd (List.eq_nil_of_length_eq_zero (by omega)) hne

theorem Opened.atomic {e : Event} (h : l.Opened c e a c' l')
    (he : e = .activeOpen ∨ e = .passiveOpen) : l.Atomic c a c' l' := by
  cases h with
  | notPermitted _ => exact fun _ _ _ => ⟨rfl, rfl⟩
  | carried hn hc => exact hc.atomic (State.replies_open hn he)

theorem Carried.ne_error {e : Event} {t : Transition} (h : l.Carried c e t a c' l') :
    a ≠ .error .noConnection ∧ a ≠ .error .notPermitted := by
  obtain ⟨r, rfl⟩ | rfl := h.answer
  · cases r <;> simp [Host.answerOf]
  · simp

theorem Opened.ne_noConnection {e : Event} (h : l.Opened c e a c' l') :
    a ≠ .error .noConnection := by
  cases h with
  | notPermitted _ => simp
  | carried _ hc => exact hc.ne_error.1

/-- Opening is not permitted outside CLOSED, and only there. -/
theorem Opened.notPermitted_iff {e : Event} (h : l.Opened c e a c' l')
    (he : e = .activeOpen ∨ e = .passiveOpen) :
    a = .error .notPermitted ↔ c.state ≠ .closed := by
  rw [← State.next?_open_eq_none_iff he]
  cases h with
  | notPermitted hn => exact iff_of_true rfl hn
  | carried hn hc => exact iff_of_false hc.ne_error.2 (by simp [hn])

theorem Sent.atomic {f : Flags} {p : Octets} (h : l.Sent c f p a c' l') : l.Atomic c a c' l' := by
  cases h with
  | tooLarge _ => exact fun _ _ _ => ⟨rfl, rfl⟩
  | unbuilt _ hu => exact fun _ _ _ => ⟨rfl, hu.network⟩
  | handed _ _ => exact atomic_answerOf _ _ _ _ _

theorem Sent.ne_noConnection {f : Flags} {p : Octets} (h : l.Sent c f p a c' l') :
    a ≠ .error .noConnection := by
  cases h with
  | tooLarge _ => simp
  | unbuilt _ _ => simp
  | @handed r _ _ _ => cases r <;> simp [Host.answerOf]

theorem Sent.tooLarge_iff {f : Flags} {p : Octets} (h : l.Sent c f p a c' l') :
    a = .error .tooLarge ↔ maxPayload < p.length := by
  cases h with
  | tooLarge hp => exact iff_of_true rfl hp
  | unbuilt hp _ => exact iff_of_false (by simp) (Nat.not_lt.mpr hp)
  | @handed r _ hp _ =>
    exact iff_of_false (by cases r <;> simp [Host.answerOf]) (Nat.not_lt.mpr hp)

end Link

/-! ## The calls of the user -/

namespace Host

variable {α ν : Type}

/-- The table and the network layer are as before, if the answer is another error than a refusal. -/
def Atomic {β : Type} (h : Host α ν) (a : Except Error β) (h' : Host α ν) : Prop :=
  ∀ e, a = .error e → (∀ r, e ≠ .undelivered r) →
    h'.table = h.table ∧ h'.link.network = h.link.network

/-- What opening the connection `k` is answered with. -/
structure OpenErrors (h : Host α ν) (k : Key) (a : Except Error Unit) : Prop where
  noConnection_iff : a = .error .noConnection ↔ h.get? k = none
  notPermitted_iff : a = .error .notPermitted ↔ ∃ c, h.get? k = some c ∧ c.state ≠ .closed

section

variable {h : Host α ν} {k : Key} {c c' : Connection} {l' : Link α ν} {a : Except Error Unit}

/-- A call that leaves the record of a host alone leaves its table alone. -/
theorem atomic_hold (hk : h.get? k = some c) (ha : h.link.Atomic c a c' l') :
    h.Atomic a (h.hold k c' l') := by
  intro e he hown
  obtain ⟨rfl, hn⟩ := ha e he hown
  exact ⟨by rw [hold_self hk], hn⟩

theorem atomic_self {β : Type} (h : Host α ν) (a : Except Error β) : h.Atomic a h :=
  fun _ _ _ => ⟨rfl, rfl⟩

theorem OpenErrors.stale (hk : h.get? k = none) : h.OpenErrors k (.error .noConnection) where
  noConnection_iff := iff_of_true rfl hk
  notPermitted_iff := iff_of_false (by simp) (by simp [hk])

theorem OpenErrors.opened [Network ν] {e : Event} (hk : h.get? k = some c)
    (ho : h.link.Opened c e a c' l') (he : e = .activeOpen ∨ e = .passiveOpen) :
    h.OpenErrors k a where
  noConnection_iff := iff_of_false ho.ne_noConnection (by simp [hk])
  notPermitted_iff := by simp [hk, ho.notPermitted_iff he]

end

variable [Arena α] [Network ν]

omit [Arena α] [Network ν] in
theorem create_atomic {h : Host α ν} (hw : h.table.records.WellFormed) (remoteAddr : Address)
    (remotePort localPort : UInt16) :
    let u := h.table.tupleTo remoteAddr remotePort localPort
    ∃ a h', h.create remoteAddr remotePort localPort = .ok (a, h') ∧ h.Atomic a h' ∧
      (a = .error .notPermitted ↔ ∃ k, h.table.index.find? u = some k) ∧
      (a = .error .noMemory ↔
        h.table.index.find? u = none ∧ h.table.records.capacity.toNat ≤ h.table.len) := by
  intro u
  unfold create
  obtain ⟨⟨k, hf⟩, he⟩ | ⟨hf, hfull, he⟩ | ⟨hf, k, m, hm, he⟩ :=
    ConnectionTable.create_cases hw remoteAddr remotePort localPort
  · rw [he]
    exact ⟨_, _, rfl, fun _ _ _ => ⟨rfl, rfl⟩, iff_of_true rfl ⟨k, hf⟩,
      iff_of_false (by simp) (by simp [u, hf])⟩
  · rw [he]
    exact ⟨_, _, rfl, fun _ _ _ => ⟨rfl, rfl⟩, iff_of_false (by simp) (by simp [u, hf]),
      iff_of_true rfl ⟨hf, hfull⟩⟩
  · have hlen : m.len = h.table.len + 1 := hm.len
    have hroom : m.len ≤ h.table.records.capacity.toNat := hm.capacity ▸ hm.wellFormed.room
    rw [he]
    exact ⟨_, _, rfl, fun _ ha => (nomatch ha), iff_of_false (by simp) (by simp [u, hf]),
      iff_of_false (by simp) (by omega)⟩

theorem connect_atomic (h : Host α ν) (k : Key) :
    ∃ a h', h.connect k = .ok (a, h') ∧ h.Atomic a h' ∧ h.OpenErrors k a := by
  cases hk : h.get? k with
  | none => exact ⟨_, _, connect_stale hk, h.atomic_self _, .stale hk⟩
  | some c =>
    obtain ⟨a, c', l', ho, he⟩ := connect_cases hk
    exact ⟨a, _, he, atomic_hold hk (ho.atomic (.inl rfl)), .opened hk ho (.inl rfl)⟩

omit [Arena α] in
theorem listen_atomic (h : Host α ν) (k : Key) :
    ∃ a h', h.listen k = .ok (a, h') ∧ h.Atomic a h' ∧ h.OpenErrors k a := by
  cases hk : h.get? k with
  | none => exact ⟨_, _, listen_stale hk, h.atomic_self _, .stale hk⟩
  | some c =>
    obtain ⟨a, c', l', ho, he⟩ := listen_cases hk
    exact ⟨a, _, he, atomic_hold hk (ho.atomic (.inr rfl)), .opened hk ho (.inr rfl)⟩

theorem send_atomic (h : Host α ν) (k : Key) (f : Flags) (p : Octets) :
    ∃ a h', h.send k f p = .ok (a, h') ∧ h.Atomic a h' ∧
      (a = .error .noConnection ↔ h.get? k = none) ∧
      (a = .error .tooLarge ↔ (∃ c, h.get? k = some c) ∧ Link.maxPayload < p.length) := by
  cases hk : h.get? k with
  | none => exact ⟨_, _, send_stale hk f p, h.atomic_self _, by simp, by simp⟩
  | some c =>
    obtain ⟨a, c', l', hs, he⟩ := send_cases hk f p
    exact ⟨a, _, he, atomic_hold hk hs.atomic, iff_of_false hs.ne_noConnection (by simp),
      by simp [hs.tooLarge_iff]⟩

/-! ## Runs -/

theorem run_settings (cfg : Config) (arena : α) (network : ν) (cs : List (Call α ν)) :
    ∃ log h, (start cfg arena network).run cs = .ok (log, h) ∧ h.table.records.WellFormed ∧
      h.table.settings = (cfg.address, cfg.capacity, cfg.policy) := by
  have hrun : ∃ log h, (start cfg arena network).run cs = .ok (log, h) ∧
      History.Sound log h.table ∧
        h.table.settings = (cfg.address, cfg.capacity, cfg.policy) := by
    refine run_induction ⟨History.sound_start cfg, rfl⟩ fun log h c _ ⟨hs, hset⟩ => ?_
    obtain ⟨a, h', he, hf⟩ := call_effect hs.wellFormed c
    exact ⟨a, h', he, hs.step hf, hf.settings.trans hset⟩
  obtain ⟨log, h, he, hs, hset⟩ := hrun
  exact ⟨log, h, he, hs.wellFormed, hset⟩

/-- After any run, a call of the user that fails leaves all records, the index, the sequence counter
and the network layer as they were, unless the network layer has refused its segment. A record is
not created if and only if its addresses and ports are registered, or else all places are taken. A
connection is not known if and only if its key is stale; it cannot be opened if and only if it is
not in CLOSED; and a payload is too large if and only if it has more than 65515 octets. -/
theorem user_calls_atomic (cfg : Config) (arena : α) (network : ν) (cs : List (Call α ν)) :
    ∃ log h, (start cfg arena network).run cs = .ok (log, h) ∧
      (∀ remoteAddr remotePort localPort, ∃ a h',
        h.create remoteAddr remotePort localPort = .ok (a, h') ∧ h.Atomic a h' ∧
        (a = .error .notPermitted ↔
          ∃ k, h.table.find? remoteAddr cfg.address remotePort localPort = some k) ∧
        (a = .error .noMemory ↔
          h.table.find? remoteAddr cfg.address remotePort localPort = none ∧
            cfg.capacity.toNat ≤ h.table.len)) ∧
      (∀ k, ∃ a h', h.connect k = .ok (a, h') ∧ h.Atomic a h' ∧ h.OpenErrors k a) ∧
      (∀ k, ∃ a h', h.listen k = .ok (a, h') ∧ h.Atomic a h' ∧ h.OpenErrors k a) ∧
      ∀ k f p, ∃ a h', h.send k f p = .ok (a, h') ∧ h.Atomic a h' ∧
        (a = .error .noConnection ↔ h.get? k = none) ∧
        (a = .error .tooLarge ↔ (∃ c, h.get? k = some c) ∧ 65515 < p.length) := by
  obtain ⟨log, h, hr, hw, hset⟩ := run_settings cfg arena network cs
  refine ⟨log, h, hr, fun remoteAddr remotePort localPort => ?_, h.connect_atomic, h.listen_atomic,
    h.send_atomic⟩
  obtain ⟨haddr, hcap, -⟩ : h.table.address = cfg.address ∧
      h.table.records.capacity = cfg.capacity ∧ h.table.policy = cfg.policy := by
    simpa [ConnectionTable.settings] using hset
  have hcreate := create_atomic hw remoteAddr remotePort localPort
  rw [hcap] at hcreate
  have hu : h.table.tupleTo remoteAddr remotePort localPort =
      .ofSegment remoteAddr cfg.address remotePort localPort := by
    rw [← haddr]
    rfl
  rw [hu] at hcreate
  exact hcreate

/-- There is a buffer for the SYN, but none to compute its checksum in. -/
example : ∃ log h h', (start { address := ⟨10, 0, 0, 1⟩ } ({ script := [some 0, none] } : Scripted)
      ({ address := ⟨10, 0, 0, 1⟩ } : Outbox)).run [.create ⟨10, 0, 0, 2⟩ 80 5000] = .ok (log, h) ∧
    h.connect ⟨0, 1⟩ = .ok (.error .noMemory, h') ∧ h'.table = h.table :=
  ⟨_, _, _, rfl, rfl, rfl⟩

end Host

end TcpEngine
