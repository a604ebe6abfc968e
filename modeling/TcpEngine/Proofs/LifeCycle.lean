import TcpEngine.Arena.Scripted
import TcpEngine.Network.Outbox
import TcpEngine.Proofs.Registry

/-!
# The life of a record

As long as the user does not edit it, a record changes its state and the number that it expects next
by heeding events only. Each event is heeded in a state and leads to a later one, so a state heeds
one event at most, and the number that a record expects changes no more than twice in its life.

* `Connection.Heeds`: a record has heeded some events. It has come forward (`Heeds.forward`), and
  what it expects next is behind the last SYN or FIN that it has consumed (`Heeds.recvNext_cases`).
* `Host.call_heeds`: a call creates a record, or brings events to the records that there are.
* `History.life`: a record as each call since its creation has left it. Its stages make up a
  `LifeCycle`, which every call prolongs (`LifeCycle.cons`).
* `Host.records_live_forward`: the life of every live record, after any run.
-/

namespace TcpEngine

/-! ## Heeding events -/

namespace Connection

/-- The record has heeded the event `e`. Its transition was completed, or stopped at a later
reply. -/
structure Heeded (c : Connection) (e : Event) (t : Transition) (c' : Connection) : Prop where
  next : c.state.next? e = some t
  state : c'.state = t.during ∨ c'.state = t.after
  recvNext : c'.recvNext = t.acknowledge.getD c.recvNext
  fixed : c'.fixed = c.fixed

/-- The record has heeded events one after the other, each in the state that it was in then. It may
have sent segments. -/
inductive Heeds : Connection → List (State × Event) → Connection → Prop
  | nil {c c' : Connection} : c'.state = c.state → c'.recvNext = c.recvNext → c'.fixed = c.fixed →
    Heeds c [] c'
  | cons {c c₁ c' : Connection} {e : Event} {t : Transition} {es : List (State × Event)} :
    c.Heeded e t c₁ → Heeds c₁ es c' → Heeds c ((c.state, e) :: es) c'

variable {c c' : Connection} {e : Event} {t : Transition} {es : List (State × Event)}

theorem Heeds.rfl : Heeds c [] c := .nil (Eq.refl _) (Eq.refl _) (Eq.refl _)

theorem Heeded.heeds (h : c.Heeded e t c') : Heeds c [(c.state, e)] c' := .cons h .rfl

theorem Heeded.rank_lt (h : c.Heeded e t c') : c.state.rank < c'.state.rank := by
  obtain ⟨hlt, hle⟩ := State.rank_next? h.next
  obtain hs | hs := h.state
  · rw [hs]; exact hlt
  · rw [hs]; exact Nat.lt_of_lt_of_le hlt hle

/-- A number to acknowledge comes with a SYN in LISTEN or with a FIN in ESTABLISHED. -/
theorem Heeded.recvNext_cases (h : c.Heeded e t c') :
    c'.recvNext = c.recvNext ∨ ∃ s, c'.recvNext = s.add 1 ∧
      ((c.state = .listen ∧ e = .syn s) ∨ (c.state = .established ∧ e = .fin s)) := by
  obtain ⟨hn, -, hr, -⟩ := h
  cases hc : c.state <;> rw [hc] at hn <;> cases e <;> cases hn
  case listen.syn s => exact .inr ⟨s, hr, .inl ⟨Eq.refl _, Eq.refl _⟩⟩
  case established.fin s => exact .inr ⟨s, hr, .inr ⟨Eq.refl _, Eq.refl _⟩⟩
  all_goals exact .inl hr

theorem Heeds.fixed (h : c.Heeds es c') : c'.fixed = c.fixed := by
  induction h with
  | nil _ _ hf => exact hf
  | cons h _ ih => rw [ih, h.fixed]

/-- A record stays in its state or comes forward. -/
theorem Heeds.forward (h : c.Heeds es c') :
    c'.state = c.state ∨ c.state.rank < c'.state.rank := by
  induction h with
  | nil hs _ _ => exact .inl hs
  | cons h _ ih =>
    obtain hs | hlt := ih
    · exact .inr (hs ▸ h.rank_lt)
    · exact .inr (Nat.lt_trans h.rank_lt hlt)

theorem Heeds.rank_le (h : c.Heeds es c') : c.state.rank ≤ c'.state.rank := by
  obtain hs | hlt := h.forward
  · exact Nat.le_of_eq (congrArg State.rank hs.symm)
  · exact Nat.le_of_lt hlt

/-- A record has come past each state in which it has heeded an event. -/
theorem Heeds.rank_mem (h : c.Heeds es c') {x : State × Event} (hx : x ∈ es) :
    c.state.rank ≤ x.1.rank ∧ x.1.rank < c'.state.rank := by
  induction h with
  | nil _ _ _ => cases hx
  | cons h hes ih =>
    obtain rfl | hx := List.mem_cons.mp hx
    · exact ⟨Nat.le_refl _, Nat.lt_of_lt_of_le h.rank_lt hes.rank_le⟩
    · exact ⟨Nat.le_trans (Nat.le_of_lt h.rank_lt) (ih hx).1, (ih hx).2⟩

theorem Heeds.recvNext_cases (h : c.Heeds es c') :
    c'.recvNext = c.recvNext ∨ ∃ s, c'.recvNext = s.add 1 ∧
      ((.listen, .syn s) ∈ es ∨ (.established, .fin s) ∈ es) := by
  induction h with
  | nil _ hr _ => exact .inl hr
  | @cons c _ _ e _ es h _ ih =>
    obtain hr | ⟨s, hr, hs⟩ := ih
    · obtain hr₁ | ⟨s, hr₁, ⟨hc, rfl⟩ | ⟨hc, rfl⟩⟩ := h.recvNext_cases
      · exact .inl (hr.trans hr₁)
      · exact .inr ⟨s, hr.trans hr₁, .inl (hc ▸ List.mem_cons_self ..)⟩
      · exact .inr ⟨s, hr.trans hr₁, .inr (hc ▸ List.mem_cons_self ..)⟩
    · exact .inr ⟨s, hr, hs.imp (List.mem_cons_of_mem _) (List.mem_cons_of_mem _)⟩

/-- Before SYN-RECEIVED nothing was consumed. -/
theorem Heeds.recvNext_eq (h : c.Heeds es c') (hc : c'.state.rank ≤ 1) :
    c'.recvNext = c.recvNext := by
  obtain hr | ⟨s, -, hx | hx⟩ := h.recvNext_cases
  · exact hr
  · exact absurd (h.rank_mem hx).2 (Nat.not_lt.mpr hc)
  · have hlt : 3 < c'.state.rank := (h.rank_mem hx).2
    exact absurd (Nat.lt_of_lt_of_le hlt hc) (by decide)

end Connection

/-! ## Outcomes -/

namespace Link

variable {α ν : Type} [Network ν] {l l' : Link α ν} {c c' : Connection} {a : Except Error Unit}

theorem Sent.heeds {f : Flags} {p : Octets} (h : l.Sent c f p a c' l') : c.Heeds [] c' := by
  cases h <;> exact .nil rfl rfl rfl

/-- A transition that is undone was not heeded. -/
theorem Carried.heeded {e : Event} {t : Transition} (hn : c.state.next? e = some t)
    (h : l.Carried c e t a c' l') : c' = c ∨ c.Heeded e t c' := by
  cases h with
  | completed hr => exact .inr ⟨hn, .inr rfl, hr.recvNext, hr.fixed⟩
  | undone _ _ => exact .inl rfl
  | halted _ _ hr _ => exact .inr ⟨hn, .inl hr.state, hr.recvNext, hr.fixed⟩

theorem Opened.heeds {e : Event} (h : l.Opened c e a c' l') :
    ∃ es, c.Heeds es c' ∧ ∀ x ∈ es, x.2 = e := by
  cases h with
  | notPermitted _ => exact ⟨[], .rfl, nofun⟩
  | carried hn hc =>
    obtain rfl | hh := hc.heeded hn
    · exact ⟨[], .rfl, nofun⟩
    · exact ⟨_, hh.heeds, by simp⟩

theorem Fed.heeds {r : Option Refusal} {events : List Event} (h : l.Fed c r events a c' l') :
    ∃ es, c.Heeds es c' ∧ ∀ x ∈ es, x.2 ∈ events := by
  induction h with
  | nil _ _ _ => exact ⟨[], .rfl, nofun⟩
  | ignored _ _ ih =>
    obtain ⟨es, hh, hes⟩ := ih
    exact ⟨es, hh, fun x hx => List.mem_cons_of_mem _ (hes x hx)⟩
  | @carried _ _ _ _ _ _ _ _ e events _ _ hn hc _ ih =>
    obtain ⟨es, hh, hes⟩ := ih
    have hes' : ∀ x ∈ es, x.2 ∈ e :: events := fun x hx => List.mem_cons_of_mem _ (hes x hx)
    obtain rfl | hc := hc.heeded hn
    · exact ⟨es, hh, hes'⟩
    · exact ⟨_, .cons hc hh, List.forall_mem_cons.mpr ⟨List.mem_cons_self .., hes'⟩⟩
  | stopped hn hc =>
    obtain rfl | hc := hc.heeded hn
    · exact ⟨[], .rfl, nofun⟩
    · exact ⟨_, hc.heeds, by simp⟩

end Link

/-! ## Calls -/

/-- A call that does not edit a record. -/
def Call.KeepsRecords {α ν : Type} : Call α ν → Prop
  | .edit .. => False
  | _ => True

/-- The events that a call brings to a record. -/
def Entry.Brings {α ν : Type} (e : Entry α ν) (event : Event) : Prop :=
  match e.call with
  | .connect _ => event = .activeOpen
  | .listen _ => event = .passiveOpen
  | .receive segment src dst => ∃ q,
    Header.parse segment (e.before.table.policy.ends src dst) = .ok (.ok q) ∧
      event ∈ (Event.ofHeader q).filterMap id
  | _ => False

namespace Host

variable {α ν : Type}

/-- Every record of `h'` was a record of `h` and has heeded some of the events `P`. -/
def Heeds (h : Host α ν) (P : Event → Prop) (h' : Host α ν) : Prop :=
  ∀ k c', h'.get? k = some c' →
    ∃ c es, h.get? k = some c ∧ c.Heeds es c' ∧ ∀ x ∈ es, P x.2

section

variable {h h' : Host α ν} {k : Key} {c c' : Connection} {l' : Link α ν} {P : Event → Prop}

theorem heeds_table (ht : h'.table = h.table) : h.Heeds P h' := by
  intro k c hk
  exact ⟨c, [], (get?_of_table ht k).symm.trans hk, .rfl, nofun⟩

theorem heeds_hold (hk : h.get? k = some c) {es : List (State × Event)} (hh : c.Heeds es c')
    (hes : ∀ x ∈ es, P x.2) : h.Heeds P (h.hold k c' l') := by
  intro k₁ c₁ hk₁
  rw [get?_hold hk] at hk₁
  split at hk₁
  · rename_i e
    cases hk₁
    exact ⟨c, es, e ▸ hk, hh, hes⟩
  · exact ⟨c₁, [], hk₁, .rfl, nofun⟩

end

variable [Arena α] [Network ν] {h h' : Host α ν}

theorem receive_heeds {segment : Octets} {src dst : Address} {a : Except Error Unit}
    (he : h.receive segment src dst = .ok (a, h')) :
    h.Heeds (fun event => ∃ q, Header.parse segment (h.table.policy.ends src dst) = .ok (.ok q) ∧
      event ∈ (Event.ofHeader q).filterMap id) h' := by
  obtain ⟨r, he'⟩ | ⟨q, -, he'⟩ | ⟨q, k, -, -, a, -, he'⟩ |
    ⟨q, k, c, hp, -, hk, a, c', l', hf, he'⟩ := h.receive_cases segment src dst
  · cases he.symm.trans he'
    exact heeds_table rfl
  · cases he.symm.trans he'
    exact heeds_table rfl
  · cases he.symm.trans he'
    exact heeds_table rfl
  · cases he.symm.trans he'
    obtain ⟨es, hh, hes⟩ := hf.heeds
    exact heeds_hold hk hh fun x hx => ⟨q, hp, hes x hx⟩

/-- A record is new, or it was there before and has heeded some of the events of the call. -/
theorem call_heeds (hw : h.table.records.WellFormed) {c : Call α ν} (keep : c.KeepsRecords)
    {a : Answer} (he : h.call c = .ok (a, h')) {k : Key} {c' : Connection}
    (hk : h'.get? k = some c') :
    (∃ u, (Entry.mk h c a).created? = some (k, u) ∧ c' = .new u h.table.nextSeq) ∨
    ((∀ u, (Entry.mk h c a).created? ≠ some (k, u)) ∧
      ∃ c₀ es, h.get? k = some c₀ ∧ c₀.Heeds es c' ∧
        ∀ x ∈ es, (Entry.mk h c a).Brings x.2) := by
  obtain ⟨_, _, he', hc⟩ := call_cases hw c
  cases he.symm.trans he'
  cases hc with
  | @created _ _ _ k₁ m _ hm =>
    have hk : m.get? k = some c' := hk
    rw [hm.get?] at hk
    split at hk
    · rename_i e
      cases hk
      subst e
      exact .inl ⟨_, rfl, rfl⟩
    · rename_i hne
      refine .inr ⟨fun u hu => hne ?_, c', [], hk, .rfl, nofun⟩
      cases hu
      rfl
  | @closed k₁ _ m _ hm =>
    have hk : m.get? k = some c' := hk
    rw [hm.get?] at hk
    split at hk
    · cases hk
    · exact .inr ⟨nofun, c', [], hk, .rfl, nofun⟩
  | edited _ _ => exact keep.elim
  | editedStale _ _ => exact keep.elim
  | connected hk₀ ho =>
    obtain ⟨es, hh, hes⟩ := ho.heeds
    exact .inr ⟨nofun, heeds_hold hk₀ hh hes k c' hk⟩
  | listened hk₀ ho =>
    obtain ⟨es, hh, hes⟩ := ho.heeds
    exact .inr ⟨nofun, heeds_hold hk₀ hh hes k c' hk⟩
  | sent hk₀ hs => exact .inr ⟨nofun, heeds_hold hk₀ hs.heeds nofun k c' hk⟩
  | dropped =>
    obtain ⟨⟨a₁, h₁⟩, hx, he⟩ := Except.bind_eq_ok.mp he
    cases he
    exact .inr ⟨nofun, receive_heeds hx k c' hk⟩
  | received _ _ _ =>
    obtain ⟨⟨a₁, h₁⟩, hx, he⟩ := Except.bind_eq_ok.mp he
    cases he
    exact .inr ⟨nofun, receive_heeds hx k c' hk⟩
  | _ => exact .inr ⟨nofun, heeds_table rfl k c' hk⟩

end Host

/-- The SYN or FIN that a record consumes comes with a segment, and so do the other events of the
call. -/
theorem Entry.Brings.received {α ν : Type} {e : Entry α ν} {event : Event} (h : e.Brings event)
    (ha : event ≠ .activeOpen) (hp : event ≠ .passiveOpen) :
    ∃ segment src dst q, e.call = .receive segment src dst ∧
      Header.parse segment (e.before.table.policy.ends src dst) = .ok (.ok q) ∧
      ∀ event', e.Brings event' ↔ event' ∈ (Event.ofHeader q).filterMap id := by
  unfold Entry.Brings at *
  split at h
  · exact absurd h ha
  · exact absurd h hp
  · rename_i segment src dst hcall
    obtain ⟨q, hq, -⟩ := h
    refine ⟨segment, src, dst, q, hcall, hq, fun event' => ⟨?_, fun he => ⟨q, hq, he⟩⟩⟩
    rintro ⟨q', hq', he⟩
    cases hq.symm.trans hq'
    exact he
  · exact h.elim

/-! ## Lives -/

/-- A stage in the life of a record: what a call has left of it. -/
structure Stage (α ν : Type) where
  entry : Entry α ν
  record : Connection

section

variable {α ν : Type} {k : Key}

/-- From one stage to the next a segment was received, and its SYN or FIN consumed in the state
`s`. -/
def Stage.Consumed (x y : Stage α ν) (s : State) (event : SeqNumber → Event) : Prop :=
  ∃ segment src dst q es, y.entry.call = .receive segment src dst ∧
    Header.parse segment (y.entry.before.table.policy.ends src dst) = .ok (.ok q) ∧
    x.record.Heeds es y.record ∧ (s, event q.seqNumber) ∈ es ∧
    (∀ z ∈ es, z.2 ∈ (Event.ofHeader q).filterMap id) ∧
    y.record.recvNext = q.seqNumber.add 1

/-- A new number to expect comes from a SYN in LISTEN or a FIN in ESTABLISHED. -/
theorem Stage.consumed_cases {x y : Stage α ν} {es : List (State × Event)}
    (hh : x.record.Heeds es y.record) (hes : ∀ z ∈ es, y.entry.Brings z.2) :
    y.record.recvNext = x.record.recvNext ∨ x.Consumed y .listen .syn ∨
      x.Consumed y .established .fin := by
  obtain hr | ⟨s, hr, hz | hz⟩ := hh.recvNext_cases
  · exact .inl hr
  · obtain ⟨segment, src, dst, q, hcall, hq, hb⟩ := (hes _ hz).received (by simp) (by simp)
    obtain ⟨-, rfl⟩ : q.flags.syn = true ∧ s = q.seqNumber := by
      simpa using Event.mem_ofHeader.mp ((hb _).mp (hes _ hz))
    exact .inr (.inl ⟨segment, src, dst, q, es, hcall, hq, hh, hz,
      fun z hz => (hb z.2).mp (hes z hz), hr⟩)
  · obtain ⟨segment, src, dst, q, hcall, hq, hb⟩ := (hes _ hz).received (by simp) (by simp)
    obtain ⟨-, rfl⟩ : q.flags.fin = true ∧ s = q.seqNumber := by
      simpa using Event.mem_ofHeader.mp ((hb _).mp (hes _ hz))
    exact .inr (.inr ⟨segment, src, dst, q, es, hcall, hq, hh, hz,
      fun z hz => (hb z.2).mp (hes z hz), hr⟩)

theorem Stage.Consumed.rank {x y : Stage α ν} {s : State} {event : SeqNumber → Event}
    (h : x.Consumed y s event) : x.record.state.rank ≤ s.rank ∧ s.rank < y.record.state.rank := by
  obtain ⟨_, _, _, _, _, _, _, hh, hz, _⟩ := h
  exact hh.rank_mem hz

namespace History

/-- The life of the record with the key `k`, the last stage first, back to its creation. -/
def life : History α ν → Host α ν → Key → List (Stage α ν)
  | [], _, _ => []
  | e :: log, h, k => match h.get? k with
    | none => []
    | some c => ⟨e, c⟩ :: if e.created?.map Prod.fst = some k then [] else life log e.before k

/-- The stages, each with the one before, in which the record has come to expect another number. -/
def advances (life : List (Stage α ν)) : List (Stage α ν × Stage α ν) :=
  (life.tail.zip life).filter fun p => p.2.record.recvNext ≠ p.1.record.recvNext

variable {log : History α ν} {e : Entry α ν} {h : Host α ν} {c : Connection}

theorem life_created (hk : h.get? k = some c) {u : FourTuple} (he : e.created? = some (k, u)) :
    life (e :: log) h k = [⟨e, c⟩] := by
  simp [life, hk, he]

theorem life_kept (hk : h.get? k = some c) (he : ∀ u, e.created? ≠ some (k, u)) :
    life (e :: log) h k = ⟨e, c⟩ :: life log e.before k := by
  have hne : e.created?.map Prod.fst ≠ some k := by
    intro hfst
    obtain ⟨⟨_, u⟩, hu, rfl⟩ := Option.map_eq_some_iff.mp hfst
    exact he u hu
  simp [life, hk, hne]

theorem life_head (hk : h.get? k = some c) (hne : life log h k ≠ []) :
    ∃ e rest, life log h k = ⟨e, c⟩ :: rest := by
  cases log with
  | nil => exact absurd rfl hne
  | cons e log => exact ⟨e, _, by unfold life; rw [hk]⟩

variable {x y : Stage α ν} {rest life : List (Stage α ν)}

theorem advances_cons (x y : Stage α ν) (rest : List (Stage α ν)) :
    advances (y :: x :: rest) =
      if y.record.recvNext = x.record.recvNext then advances (x :: rest)
      else (x, y) :: advances (x :: rest) := by
  unfold advances
  rw [List.tail_cons, List.zip_cons_cons, List.filter_cons]
  split <;> simp_all

theorem mem_advances {p : Stage α ν × Stage α ν} (hp : p ∈ advances life) :
    p.1 ∈ life ∧ p.2 ∈ life ∧ p.2.record.recvNext ≠ p.1.record.recvNext := by
  obtain ⟨hz, hne⟩ := List.mem_filter.mp hp
  obtain ⟨h₁, h₂⟩ := List.of_mem_zip hz
  exact ⟨List.mem_of_mem_tail h₁, h₂, by simpa using hne⟩

end History

open History

/-- What the stages of a life have to do with each other. The last stage comes first. -/
structure LifeCycle (k : Key) (life : List (Stage α ν)) : Prop where
  /-- The record was created, in CLOSED. -/
  born : ∃ later first u, life = later ++ [first] ∧ first.entry.created? = some (k, u) ∧
    first.record = .new u first.entry.before.table.nextSeq
  forward : life.Pairwise fun y x =>
    y.record.state = x.record.state ∨ x.record.state.rank < y.record.state.rank
  fixed : life.Pairwise fun y x => y.record.fixed = x.record.fixed
  quiet : ∀ x ∈ life, x.record.state ∈ [.closed, .listen, .synSent] → x.record.recvNext = {}
  /-- The expected number has changed by a SYN at most once, and then by a FIN at most once. -/
  heard : ∃ fins syns, advances life = fins ++ syns ∧ fins.length ≤ 1 ∧ syns.length ≤ 1 ∧
    (∀ p ∈ fins, p.1.Consumed p.2 .established .fin) ∧ ∀ p ∈ syns, p.1.Consumed p.2 .listen .syn

namespace LifeCycle

variable {x y : Stage α ν} {rest : List (Stage α ν)}

theorem birth {u : FourTuple} (he : x.entry.created? = some (k, u))
    (hx : x.record = .new u x.entry.before.table.nextSeq) : LifeCycle k [x] where
  born := ⟨[], x, u, rfl, he, hx⟩
  forward := List.pairwise_singleton ..
  fixed := List.pairwise_singleton ..
  quiet := by
    intro z hz _
    rw [List.mem_singleton.mp hz, hx]
    rfl
  heard := ⟨[], [], rfl, Nat.zero_le _, Nat.zero_le _, by simp, by simp⟩

theorem rank_le (h : LifeCycle k (x :: rest)) {z : Stage α ν} (hz : z ∈ x :: rest) :
    z.record.state.rank ≤ x.record.state.rank := by
  obtain rfl | hz := List.mem_cons.mp hz
  · exact Nat.le_refl _
  · obtain hs | hlt := List.rel_of_pairwise_cons h.forward hz
    · exact Nat.le_of_eq (congrArg State.rank hs.symm)
    · exact Nat.le_of_lt hlt

/-- A record that waits or calls has consumed nothing. -/
theorem advances_eq_nil (h : LifeCycle k (x :: rest)) (hx : x.record.state.rank ≤ 1) :
    advances (x :: rest) = [] := by
  refine List.eq_nil_iff_forall_not_mem.mpr fun p hp => ?_
  have hquiet {z : Stage α ν} (hz : z ∈ x :: rest) : z.record.recvNext = {} :=
    h.quiet z hz (State.rank_le_one.mp (Nat.le_trans (h.rank_le hz) hx))
  obtain ⟨h₁, h₂, hne⟩ := mem_advances hp
  exact hne ((hquiet h₂).trans (hquiet h₁).symm)

/-- A record that is not beyond ESTABLISHED has consumed no FIN. -/
theorem not_consumed_fin (h : LifeCycle k (x :: rest)) (hx : x.record.state.rank ≤ 3)
    {p : Stage α ν × Stage α ν} (hp : p ∈ advances (x :: rest)) :
    ¬p.1.Consumed p.2 .established .fin := by
  intro hc
  obtain ⟨-, h₂, -⟩ := mem_advances hp
  exact Nat.lt_irrefl 3 (Nat.lt_of_lt_of_le hc.rank.2 (Nat.le_trans (h.rank_le h₂) hx))

theorem heard_cons (h : LifeCycle k (x :: rest)) {es : List (State × Event)}
    (hh : x.record.Heeds es y.record) (hes : ∀ z ∈ es, y.entry.Brings z.2) :
    ∃ fins syns, advances (y :: x :: rest) = fins ++ syns ∧ fins.length ≤ 1 ∧ syns.length ≤ 1 ∧
      (∀ p ∈ fins, p.1.Consumed p.2 .established .fin) ∧
      ∀ p ∈ syns, p.1.Consumed p.2 .listen .syn := by
  obtain ⟨fins, syns, ha, hfl, hsl, hf, hs⟩ := h.heard
  rw [advances_cons]
  by_cases hr : y.record.recvNext = x.record.recvNext
  · rw [if_pos hr]
    exact ⟨fins, syns, ha, hfl, hsl, hf, hs⟩
  · rw [if_neg hr]
    obtain he | hc | hc := Stage.consumed_cases hh hes
    · exact absurd he hr
    · rw [h.advances_eq_nil hc.rank.1]
      exact ⟨[], [(x, y)], rfl, Nat.zero_le _, Nat.le_refl _, by simp, by simpa using hc⟩
    · obtain rfl : fins = [] := List.eq_nil_iff_forall_not_mem.mpr fun p hp =>
        h.not_consumed_fin hc.rank.1 (ha ▸ List.mem_append_left _ hp) (hf p hp)
      rw [ha]
      exact ⟨[(x, y)], syns, rfl, Nat.le_refl _, hsl, by simpa using hc, hs⟩

/-- A call prolongs the life of a record that has heeded its events. -/
theorem cons (h : LifeCycle k (x :: rest)) {es : List (State × Event)}
    (hh : x.record.Heeds es y.record) (hes : ∀ z ∈ es, y.entry.Brings z.2) :
    LifeCycle k (y :: x :: rest) where
  born := by
    obtain ⟨later, first, u, hl, hu⟩ := h.born
    exact ⟨y :: later, first, u, by rw [hl]; rfl, hu⟩
  forward := by
    refine h.forward.cons fun z hz => ?_
    obtain hs | hlt := hh.forward
    · rw [hs]
      obtain rfl | hz := List.mem_cons.mp hz
      · exact .inl rfl
      · exact List.rel_of_pairwise_cons h.forward hz
    · exact .inr (Nat.lt_of_le_of_lt (h.rank_le hz) hlt)
  fixed := by
    refine h.fixed.cons fun z hz => hh.fixed.trans ?_
    obtain rfl | hz := List.mem_cons.mp hz
    · rfl
    · exact List.rel_of_pairwise_cons h.fixed hz
  quiet := by
    intro z hz hs
    obtain rfl | hz := List.mem_cons.mp hz
    · have hle := State.rank_le_one.mpr hs
      have hx := State.rank_le_one.mp (Nat.le_trans hh.rank_le hle)
      rw [hh.recvNext_eq hle]
      exact h.quiet x (List.mem_cons_self ..) hx
    · exact h.quiet z hz hs
  heard := h.heard_cons hh hes

end LifeCycle

end

/-! ## Runs -/

namespace Host

variable {α ν : Type} [Arena α] [Network ν]

/-- As long as the user edits no record, the life of every live record goes back to its creation in
CLOSED, in every state it stays or moves forward, what was fixed at its creation stays, it expects
the number 0 as long as it waits or calls, and it has come to expect another number at most twice:
when a SYN was consumed in LISTEN, and when a FIN was consumed in ESTABLISHED. -/
theorem records_live_forward {cs : List (Call α ν)} (keep : ∀ c ∈ cs, c.KeepsRecords)
    (cfg : Config) (arena : α) (network : ν) :
    ∃ log h, (start cfg arena network).run cs = .ok (log, h) ∧
      ∀ k c, h.get? k = some c → LifeCycle k (History.life log h k) := by
  have hrun : ∃ log h, (start cfg arena network).run cs = .ok (log, h) ∧
      History.Sound log h.table ∧
        ∀ k c, h.get? k = some c → LifeCycle k (History.life log h k) := by
    refine run_induction ⟨History.sound_start cfg, nofun⟩ fun log h c hc ⟨hs, hl⟩ => ?_
    obtain ⟨a, h', he, hf⟩ := call_effect hs.wellFormed c
    refine ⟨a, h', he, hs.step hf, fun k c' hk => ?_⟩
    obtain ⟨u, hu, hnew⟩ | ⟨hne, c₀, es, hk₀, hh, hes⟩ :=
      call_heeds hs.wellFormed (keep c hc) he hk
    · rw [History.life_created hk hu]
      exact .birth hu hnew
    · have hlife := hl k c₀ hk₀
      obtain ⟨later, first, u, hborn, -⟩ := hlife.born
      obtain ⟨e, rest, hx⟩ := History.life_head hk₀ (by rw [hborn]; simp)
      rw [History.life_kept hk hne, hx]
      exact (hx ▸ hlife).cons hh hes
  obtain ⟨log, h, he, -, hl⟩ := hrun
  exact ⟨log, h, he, hl⟩

/-- A record waits and is called. Then a segment acknowledges its SYN and closes the connection, and
there is no buffer for the second reply to that. -/
theorem records_live_forward_halted : ∃ cs : List (Call Scripted Outbox),
    cs = [.create ⟨10, 0, 0, 2⟩ 80 5000, .listen ⟨0, 1⟩,
      .receive (Header.segment ⟨80, 5000, ⟨7⟩, {}, .SYN, 0, 0⟩ [] ⟨10, 0, 0, 2⟩ ⟨10, 0, 0, 1⟩)
        ⟨10, 0, 0, 2⟩ ⟨10, 0, 0, 1⟩,
      .receive (Header.segment ⟨80, 5000, ⟨8⟩, {}, .FIN ||| .ACK, 0, 0⟩ [] ⟨10, 0, 0, 2⟩
        ⟨10, 0, 0, 1⟩) ⟨10, 0, 0, 2⟩ ⟨10, 0, 0, 1⟩] ∧ (∀ c ∈ cs, c.KeepsRecords) ∧
    ∃ log h, (start { address := ⟨10, 0, 0, 1⟩ }
        { script := [some 0, some 0, some 0, some 0, none] }
        { address := ⟨10, 0, 0, 1⟩ }).run cs = .ok (log, h) ∧
      (History.life log h ⟨0, 1⟩).map (fun x => (x.record.state, x.record.recvNext)) =
        [(.closeWait, ⟨9⟩), (.synReceived, ⟨8⟩), (.listen, {}), (.closed, {})] ∧
      LifeCycle ⟨0, 1⟩ (History.life log h ⟨0, 1⟩) := by
  have keep : ∀ c ∈ ([.create ⟨10, 0, 0, 2⟩ 80 5000, .listen ⟨0, 1⟩,
      .receive (Header.segment ⟨80, 5000, ⟨7⟩, {}, .SYN, 0, 0⟩ [] ⟨10, 0, 0, 2⟩ ⟨10, 0, 0, 1⟩)
        ⟨10, 0, 0, 2⟩ ⟨10, 0, 0, 1⟩,
      .receive (Header.segment ⟨80, 5000, ⟨8⟩, {}, .FIN ||| .ACK, 0, 0⟩ [] ⟨10, 0, 0, 2⟩
        ⟨10, 0, 0, 1⟩) ⟨10, 0, 0, 2⟩ ⟨10, 0, 0, 1⟩] : List (Call Scripted Outbox)),
      c.KeepsRecords := by
    simp [Call.KeepsRecords]
  obtain ⟨log, h, he, hl⟩ := records_live_forward keep { address := ⟨10, 0, 0, 1⟩ }
    { script := [some 0, some 0, some 0, some 0, none] } { address := ⟨10, 0, 0, 1⟩ }
  refine ⟨_, rfl, keep, log, h, he, ?_⟩
  cases he
  exact ⟨rfl, hl _ _ rfl⟩

end Host

end TcpEngine
