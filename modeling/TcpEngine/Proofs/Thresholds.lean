import TcpEngine.Network.Outbox
import TcpEngine.Proofs.Allocation
import TcpEngine.Proofs.ArenaDiscipline
import TcpEngine.Proofs.LifeCycle
import TcpEngine.Proofs.Reliability

/-!
# What a budget is enough for

While the checksum of a segment of `n` octets is computed, the segment and the buffer for its
checksum are out, which take up `12 + 2 * n` octets of a budget. All calls give back what they
take, so the whole budget is there for each segment. It is enough for the segments that a connection
is opened and closed with, or it is not: then no connection is ever opened.

* `Arena.Denies`: one of the two buffers of a segment is refused. Then transitions with replies are
  undone (`Host.carryOut_denied`), and no record in CLOSED or LISTEN moves (`Host.feed_denied`).
* `Link.Fed.ne_closeWait`: a record is left in CLOSE-WAIT only if there was no memory for a reply.
* `Budget.serves`, `Budget.denies`: the threshold for a segment.
* `Host.run_statesIn`: the states that records can be in after a run.
* `Host.budget_thresholds`: what all this comes to, after any run.
-/

namespace TcpEngine

/-! ## Arenas that are too small -/

/-- The arenas in `P` do not grant both the buffer of a segment of `n` octets and, while that is
out, the one for its checksum. -/
def Arena.Denies {α : Type} [Arena α] (P : α → Prop) (n : Nat) : Prop :=
  ∀ a b a₁, P a → allocate a n = (some b, a₁) →
    (allocate a₁ (Checksum.pseudoHeaderLen + n)).1 = none

theorem segmentChecksum_denied {α : Type} [Arena α] {arena : α} {header payload : Octets}
    (hlen : header.length + payload.length ≤ Segment.maxLen)
    (hnone : (Arena.allocate arena
      (Checksum.pseudoHeaderLen + (header.length + payload.length))).1 = none)
    (src dst : Address) :
    ∃ arena', segmentChecksum arena header payload src dst = .ok (.error .noMemory, arena') := by
  obtain ⟨r, arena', hc, he⟩ := segmentChecksum_computed arena header payload src dst
  cases hc with
  | tooLarge hlong => exact absurd hlen (Nat.not_le.mpr hlong)
  | noBuffer _ _ => exact ⟨_, he⟩
  | wrongBuffer _ _ _ => exact ⟨_, he⟩
  | done _ hb _ _ =>
    rw [hb] at hnone
    cases hnone

/-- Without memory for both buffers a segment is not built. -/
theorem Link.send_denied {α ν : Type} [Arena α] [Network ν] {P : α → Prop} {l : Link α ν}
    {f : Flags} {p : Octets} (hD : Arena.Denies P (Segment.headerLen + p.length))
    (hp : p.length ≤ maxPayload) (ha : P l.arena) (c : Connection) :
    ∃ l', l.Unbuilt c f p l' ∧ l.send c f p = .ok (.error .noMemory, c, l') := by
  have hheader : c.header f (UInt16.ofNat p.length) = c.nextHeader f p := rfl
  unfold send
  rw [if_neg (Nat.not_lt.mpr hp), hheader]
  dsimp only
  rw [c.bufferLen_nextHeader f hp]
  split
  · exact ⟨_, .noBuffer _, rfl⟩
  · rename_i b arena hb
    split
    · exact ⟨_, .wrongBuffer _, rfl⟩
    · rename_i hlen
      have hlen : b.length = Segment.headerLen + p.length := Classical.not_not.mp hlen
      have hfits : ((c.nextHeader f p).octets 0).length + p.length ≤ Segment.maxLen := fits hp
      obtain ⟨arena', hsum⟩ := segmentChecksum_denied hfits (hD _ _ _ ha hb)
        c.tuple.localAddr c.tuple.remoteAddr
      refine ⟨_, ?_, finish_failed hlen hsum⟩
      exact .noChecksum _

/-- The user opens a connection with a segment. -/
theorem State.replies_activeOpen {s : State} {t : Transition} (h : s.next? .activeOpen = some t) :
    t.replies ≠ [] := by
  cases s <;> cases h
  simp

namespace Host

variable {α ν : Type} [Arena α] [Network ν] {P : α → Prop} {h : Host α ν} {k : Key}
  {c : Connection}

theorem send_denied {f : Flags} {p : Octets} (hD : Arena.Denies P (Segment.headerLen + p.length))
    (hp : p.length ≤ Link.maxPayload) (hk : h.get? k = some c) (ha : P h.link.arena) :
    ∃ l', h.link.Unbuilt c f p l' ∧
      h.send k f p = .ok (.error .noMemory, h.hold k c l') := by
  obtain ⟨l', hu, he⟩ := Link.send_denied hD hp ha c
  exact ⟨l', hu, send_eq hk he⟩

/-- A transition with replies is undone. -/
theorem carryOut_denied (hD : Arena.Denies P Segment.headerLen) (hk : h.get? k = some c)
    (ha : P h.link.arena) (e : Event) {t : Transition} (ht : t.replies ≠ []) :
    ∃ l', l'.network = h.link.network ∧
      h.carryOut k e t = .ok (.error .noMemory, h.hold k c l') := by
  obtain ⟨f, fs, hfs⟩ := List.exists_cons_of_ne_nil ht
  have hk₁ := get?_hold_self hk (c.step t) (h.link.note (.moved c.tuple c.state e t.during))
  obtain ⟨l', hu, he⟩ := send_denied (f := f) (p := []) hD (Nat.zero_le _) hk₁ ha
  refine ⟨l', hu.network, ?_⟩
  unfold carryOut
  rw [beginTransition_eq hk]
  dsimp only
  rw [hfs, reply_failed he (by simp), if_pos rfl, hold_hold hk, put_hold hk]
  rfl

/-- Events of a segment leave a record in CLOSED or LISTEN as it is. -/
theorem feed_denied (hD : Arena.Denies P Segment.headerLen) (hk : h.get? k = some c)
    (ha : P h.link.arena) (hc : c.state ∈ [.closed, .listen]) (refusal : Option Refusal)
    {es : List Event} (hes : ∀ e ∈ es, e.Arrives) :
    ∃ a l', l'.network = h.link.network ∧ h.feed k refusal es = .ok (a, h.hold k c l') := by
  induction es generalizing h with
  | nil => exact ⟨_, h.link, rfl, by rw [hold_self hk]; rfl⟩
  | cons e es ih =>
    obtain ⟨he, hes⟩ := List.forall_mem_cons.mp hes
    cases hn : c.state.next? e with
    | none =>
      obtain ⟨a, l', hnet, hf⟩ :=
        ih (get?_hold_self hk c (h.link.note (.ignored c.tuple e c.state))) ha hes
      rw [hold_hold hk] at hf
      exact ⟨a, l', hnet, (feed_ignored hk hn refusal es).trans hf⟩
    | some t =>
      have ht : t.replies ≠ [] := by
        obtain ⟨-, hs⟩ | ⟨ht, -⟩ := State.replies_next? hn he
        · obtain hs | hs := hs <;> rw [hs] at hc <;> simp at hc
        · exact ht
      obtain ⟨l', hnet, hcarry⟩ := carryOut_denied hD hk ha e ht
      exact ⟨_, l', hnet, feed_failed hk hn hcarry (by simp) refusal es⟩

theorem connect_denied (hD : Arena.Denies P Segment.headerLen) (ha : P h.link.arena) (k : Key) :
    ∃ a h', h.connect k = .ok (a, h') ∧ h'.table = h.table ∧ h'.link.network = h.link.network := by
  cases hk : h.get? k with
  | none => exact ⟨_, _, connect_stale hk, rfl, rfl⟩
  | some c =>
    cases hn : c.state.next? .activeOpen with
    | none => exact ⟨_, _, connect_notPermitted hk hn, by rw [hold_self hk], rfl⟩
    | some t =>
      obtain ⟨l', hnet, he⟩ := carryOut_denied hD hk ha .activeOpen (State.replies_activeOpen hn)
      exact ⟨_, _, (connect_eq hk hn).trans he, by rw [hold_self hk], hnet⟩

theorem receive_denied (hD : Arena.Denies P Segment.headerLen) (ha : P h.link.arena)
    (hin : ∀ k c, h.get? k = some c → c.state ∈ [.closed, .listen]) (segment : Octets)
    (src dst : Address) :
    ∃ a h', h.receive segment src dst = .ok (a, h') ∧ h'.table = h.table ∧
      h'.link.network = h.link.network := by
  obtain ⟨r, he⟩ | ⟨q, -, he⟩ | ⟨q, k, -, -, a, -, he⟩ | ⟨q, k, c, hq, hf, hk, -⟩ :=
    h.receive_cases segment src dst
  · exact ⟨_, _, he, rfl, rfl⟩
  · exact ⟨_, _, he, rfl, rfl⟩
  · exact ⟨_, _, he, rfl, rfl⟩
  · have hk₁ : (h.note (.received src dst q)).get? k = some c := hk
    obtain ⟨a, l', hnet, he⟩ :=
      feed_denied hD hk₁ ha (hin k c hk) none (Event.arrives_ofHeader q)
    refine ⟨a, _, (receive_found hq hf).trans he, ?_, hnet⟩
    rw [hold_self hk₁]
    rfl

/-! ## Arenas that are large enough -/

theorem answerOf_ne_noMemory (r : Option Refusal) : answerOf r ≠ .error .noMemory := by
  cases r <;> simp [answerOf]

theorem connect_served (hS : Arena.Serves P Segment.headerLen) (ha : P h.link.arena) (k : Key) :
    ∃ a h', h.connect k = .ok (a, h') ∧ a ≠ .error .noMemory := by
  cases hk : h.get? k with
  | none => exact ⟨_, _, connect_stale hk, by simp⟩
  | some c =>
    cases hn : c.state.next? .activeOpen with
    | none => exact ⟨_, _, connect_notPermitted hk hn, by simp⟩
    | some t =>
      obtain ⟨r, c', l', -, he⟩ := carryOut_served hS hk ha .activeOpen t
      exact ⟨_, _, (connect_eq hk hn).trans he, answerOf_ne_noMemory r⟩

theorem receive_served (hS : Arena.Serves P Segment.headerLen) (ha : P h.link.arena)
    (segment : Octets) (src dst : Address) :
    ∃ a h', h.receive segment src dst = .ok (a, h') ∧ a ≠ .error .noMemory := by
  obtain ⟨r, he⟩ | ⟨q, -, he⟩ | ⟨q, k, -, -, a, hne, he⟩ | ⟨q, k, c, hq, hf, hk, -⟩ :=
    h.receive_cases segment src dst
  · exact ⟨_, _, he, by simp⟩
  · exact ⟨_, _, he, by simp⟩
  · exact ⟨a, _, he, hne⟩
  · have hk₁ : (h.note (.received src dst q)).get? k = some c := hk
    obtain ⟨r, c', l', -, hfed⟩ := feed_served hS hk₁ ha ((Event.ofHeader q).filterMap id)
    have he := hfed none []
    rw [List.append_nil] at he
    exact ⟨_, _, (receive_found hq hf).trans he, answerOf_ne_noMemory _⟩

end Host

/-! ## CLOSE-WAIT -/

/-- No transition ends in CLOSE-WAIT. -/
theorem State.after_ne_closeWait {s : State} {e : Event} {t : Transition}
    (h : s.next? e = some t) : t.after ≠ .closeWait := by
  cases s <;> cases e <;> cases h <;> simp [Transition.to]

namespace Link

variable {α ν : Type} [Network ν] {l l' : Link α ν} {c c' : Connection} {a : Except Error Unit}

/-- With memory a transition is completed. -/
theorem Carried.after {e : Event} {t : Transition} (h : l.Carried c e t a c' l')
    (ha : a ≠ .error .noMemory) : c'.state = t.after := by
  cases h with
  | completed _ => rfl
  | undone _ _ => exact absurd rfl ha
  | halted _ _ _ _ => exact absurd rfl ha

theorem Opened.ne_closeWait {e : Event} (h : l.Opened c e a c' l') (ha : a ≠ .error .noMemory)
    (hc : c.state ≠ .closeWait) : c'.state ≠ .closeWait := by
  cases h with
  | notPermitted _ => exact hc
  | carried hn hcarry =>
    rw [hcarry.after ha]
    exact State.after_ne_closeWait hn

theorem Fed.ne_closeWait {r : Option Refusal} {es : List Event} (h : l.Fed c r es a c' l')
    (ha : a ≠ .error .noMemory) (hc : c.state ≠ .closeWait) : c'.state ≠ .closeWait := by
  induction h with
  | nil _ _ _ => exact hc
  | ignored _ _ ih => exact ih ha hc
  | carried hn hcarry _ ih =>
    refine ih ha ?_
    rw [hcarry.after (Host.answerOf_ne_noMemory _)]
    exact State.after_ne_closeWait hn
  | stopped _ _ => exact absurd rfl ha

end Link

/-! ## The states of records -/

/-- The record stays where it is, or waits for the other side. -/
theorem Connection.Heeds.passive {c c' : Connection} {es : List (State × Event)}
    (h : c.Heeds es c') (hes : ∀ x ∈ es, x.2 = .passiveOpen) :
    c'.state = c.state ∨ c'.state = .listen := by
  induction h with
  | nil hs _ _ => exact .inl hs
  | cons hh _ ih =>
    obtain ⟨rfl, hrest⟩ := List.forall_mem_cons.mp hes
    obtain ⟨-, rfl⟩ := Host.next?_passiveOpen hh.next
    obtain hs | hs := ih hrest
    · exact .inr (hs.trans (hh.state.elim id id))
    · exact .inr hs

/-- Calls that give back what they take do not lead out of `P`. -/
def Arena.Kept {α : Type} [Arena α] (P : α → Prop) : Prop :=
  ∀ a a' : α, Balanced 2 a a' → P a → P a'

/-- An arena that is brought in is in `P`. -/
def Call.BringsArena {α ν : Type} (P : α → Prop) : Call α ν → Prop
  | .attach arena _ => P arena
  | _ => True

namespace Host

/-- All records are in states that `Q` holds of. -/
def StatesIn {α ν : Type} (Q : State → Prop) (h : Host α ν) : Prop :=
  ∀ k c, h.get? k = some c → Q c.state

section

variable {α ν : Type} {Q : State → Prop} {h h' : Host α ν} {k : Key} {c c' : Connection}

theorem StatesIn.table (hin : h.StatesIn Q) (ht : h'.table = h.table) : h'.StatesIn Q := by
  intro k c hk
  exact hin k c ((get?_of_table ht k).symm.trans hk)

theorem StatesIn.hold (hin : h.StatesIn Q) (hk : h.get? k = some c) (hc' : Q c'.state)
    (l' : Link α ν) : (h.hold k c' l').StatesIn Q := by
  intro k₁ c₁ hk₁
  rw [get?_hold hk] at hk₁
  split at hk₁
  · cases hk₁
    exact hc'
  · exact hin k₁ c₁ hk₁

end

variable {α ν : Type} [Arena α] [Network ν] {P : α → Prop} {Q : State → Prop} {h h' : Host α ν}

theorem connect_ne_closeWait {k : Key} {a : Except Error Unit}
    (hin : h.StatesIn (· ≠ .closeWait)) (he : h.connect k = .ok (a, h'))
    (ha : a ≠ .error .noMemory) : h'.StatesIn (· ≠ .closeWait) := by
  cases hk : h.get? k with
  | none =>
    cases he.symm.trans (connect_stale hk)
    exact hin
  | some c =>
    obtain ⟨a₁, c', l', ho, he₁⟩ := connect_cases hk
    cases he.symm.trans he₁
    exact hin.hold hk (ho.ne_closeWait ha (hin k c hk)) l'

theorem receive_ne_closeWait {segment : Octets} {src dst : Address} {a : Except Error Unit}
    (hin : h.StatesIn (· ≠ .closeWait)) (he : h.receive segment src dst = .ok (a, h'))
    (ha : a ≠ .error .noMemory) : h'.StatesIn (· ≠ .closeWait) := by
  obtain ⟨r, he₁⟩ | ⟨q, -, he₁⟩ | ⟨q, k, -, -, a₁, -, he₁⟩ |
    ⟨q, k, c, -, -, hk, a₁, c', l', hf, he₁⟩ := h.receive_cases segment src dst
  · cases he.symm.trans he₁
    exact hin.table rfl
  · cases he.symm.trans he₁
    exact hin.table rfl
  · cases he.symm.trans he₁
    exact hin.table rfl
  · cases he.symm.trans he₁
    exact hin.hold hk (hf.ne_closeWait ha (hin k c hk)) l'

/-- Only connecting and receiving bring records to other states than CLOSED and LISTEN. -/
theorem call_statesIn (hclosed : Q .closed) (hlisten : Q .listen)
    (hw : h.table.records.WellFormed) {c : Call α ν} (keep : c.KeepsRecords) {a : Answer}
    (he : h.call c = .ok (a, h')) (hin : h.StatesIn Q)
    (hconnect : ∀ k a, h.connect k = .ok (a, h') → h'.StatesIn Q)
    (hreceive : ∀ segment src dst a, h.receive segment src dst = .ok (a, h') → h'.StatesIn Q) :
    h'.StatesIn Q := by
  have hpassive (hb : ∀ event, (Entry.mk h c a).Brings event → event = .passiveOpen) :
      h'.StatesIn Q := by
    intro k c' hk
    obtain ⟨u, -, rfl⟩ | ⟨-, c₀, es, hk₀, hh, hes⟩ := call_heeds hw keep he hk
    · exact hclosed
    · obtain hs | hs := hh.passive fun x hx => hb _ (hes x hx)
      · rw [hs]
        exact hin k c₀ hk₀
      · rw [hs]
        exact hlisten
  cases c with
  | connect k =>
    obtain ⟨⟨a₁, h₁⟩, hx, he⟩ := Except.bind_eq_ok.mp he
    cases he
    exact hconnect k a₁ hx
  | receive segment src dst =>
    obtain ⟨⟨a₁, h₁⟩, hx, he⟩ := Except.bind_eq_ok.mp he
    cases he
    exact hreceive segment src dst a₁ hx
  | listen k => exact hpassive fun _ hb => hb
  | _ => exact hpassive fun _ hb => hb.elim

theorem call_arena (hP : Arena.Kept P) {c : Call α ν} (hc : c.BringsArena P)
    {a : Answer} (he : h.call c = .ok (a, h')) (ha : P h.link.arena) : P h'.link.arena := by
  obtain hk | ⟨arena, network, rfl⟩ := c.keepsLink_or
  · exact hP _ _ (call_balanced hk he) ha
  · cases he
    exact hc

/-- Where the arenas in `P` stay in it and do not let connecting and receiving bring records out of
the states `Q`, no run that edits no record does. -/
theorem run_statesIn (hP : Arena.Kept P) (hclosed : Q .closed) (hlisten : Q .listen)
    (hconnect : ∀ (h h' : Host α ν) k a, P h.link.arena → h.StatesIn Q →
      h.connect k = .ok (a, h') → h'.StatesIn Q)
    (hreceive : ∀ (h h' : Host α ν) segment src dst a, P h.link.arena → h.StatesIn Q →
      h.receive segment src dst = .ok (a, h') → h'.StatesIn Q)
    {cs : List (Call α ν)} (hcs : ∀ c ∈ cs, c.KeepsRecords ∧ c.BringsArena P) (cfg : Config)
    {arena : α} (ha : P arena) (network : ν) :
    ∃ log h, (start cfg arena network).run cs = .ok (log, h) ∧ P h.link.arena ∧ h.StatesIn Q := by
  have hrun : ∃ log h, (start cfg arena network).run cs = .ok (log, h) ∧
      History.Sound log h.table ∧ P h.link.arena ∧ h.StatesIn Q := by
    refine run_induction ⟨History.sound_start cfg, ha, nofun⟩ fun log h c hc ⟨hs, ha, hin⟩ => ?_
    obtain ⟨keep, hbring⟩ := hcs c hc
    obtain ⟨a, h', he, hf⟩ := call_effect hs.wellFormed c
    exact ⟨a, h', he, hs.step hf, call_arena hP hbring he ha,
      call_statesIn hclosed hlisten hs.wellFormed keep he hin
        (fun k a hx => hconnect h h' k a ha hin hx)
        (fun segment src dst a hx => hreceive h h' segment src dst a ha hin hx)⟩
  obtain ⟨log, h, he, -, ha, hin⟩ := hrun
  exact ⟨log, h, he, ha, hin⟩

/-- With arenas that are large enough for a segment without payload, no run leaves a record in
CLOSE-WAIT. -/
theorem run_served (hP : Arena.Kept P) (hS : Arena.Serves P Segment.headerLen)
    {cs : List (Call α ν)} (hcs : ∀ c ∈ cs, c.KeepsRecords ∧ c.BringsArena P) (cfg : Config)
    {arena : α} (ha : P arena) (network : ν) :
    ∃ log h, (start cfg arena network).run cs = .ok (log, h) ∧ P h.link.arena ∧
      h.StatesIn (· ≠ .closeWait) := by
  refine run_statesIn hP nofun nofun (fun h h' k a ha hin he => ?_)
    (fun h h' segment src dst a ha hin he => ?_) hcs cfg ha network
  · obtain ⟨_, _, he', hne⟩ := connect_served hS ha k
    cases he.symm.trans he'
    exact connect_ne_closeWait hin he hne
  · obtain ⟨_, _, he', hne⟩ := receive_served hS ha segment src dst
    cases he.symm.trans he'
    exact receive_ne_closeWait hin he hne

/-- With arenas that are too small for it, all records stay in CLOSED and LISTEN. -/
theorem run_denied (hP : Arena.Kept P) (hD : Arena.Denies P Segment.headerLen)
    {cs : List (Call α ν)} (hcs : ∀ c ∈ cs, c.KeepsRecords ∧ c.BringsArena P) (cfg : Config)
    {arena : α} (ha : P arena) (network : ν) :
    ∃ log h, (start cfg arena network).run cs = .ok (log, h) ∧ P h.link.arena ∧
      h.StatesIn (· ∈ [.closed, .listen]) := by
  refine run_statesIn hP (by simp) (by simp) (fun h h' k a ha hin he => ?_)
    (fun h h' segment src dst a ha hin he => ?_) hcs cfg ha network
  · obtain ⟨_, _, he', ht, -⟩ := connect_denied hD ha k
    cases he.symm.trans he'
    exact hin.table ht
  · obtain ⟨_, _, he', ht, -⟩ := receive_denied hD ha hin segment src dst
    cases he.symm.trans he'
    exact hin.table ht

end Host

/-! ## Budgets -/

namespace Budget

/-- The budget has this limit, and nothing of it is handed out. -/
structure Idle (limit : Nat) (a : Budget) : Prop where
  limit_eq : a.limit = limit
  held_eq : a.held = 0

theorem idle_kept (limit : Nat) : Arena.Kept (Idle limit) := fun _ _ h ha =>
  { limit_eq := (limit_balanced h).trans ha.limit_eq
    held_eq := (held_balanced h).trans ha.held_eq }

/-- As long as all that is out can be addressed, a request is granted within the limit. -/
theorem allocate_eq {a : Budget} {n : Nat} (hn : a.held + n ≤ Unbounded.longest) :
    a.allocate n = if a.limit < a.held + n then (none, a) else
      (some (List.replicate n 0),
        { a with held := a.held + n, peak := max a.peak (a.held + n) }) := by
  have hsum : a.held + n < UInt64.size := Nat.lt_of_le_of_lt hn (by decide)
  have hlong : n ≤ Unbounded.longest := Nat.le_trans (Nat.le_add_left ..) hn
  split
  · rename_i hlimit
    exact allocate_refused fun h => absurd h.2.1 (Nat.not_le.mpr hlimit)
  · rename_i hlimit
    exact allocate_granted ⟨hsum, Nat.not_lt.mp hlimit, hlong⟩

section

variable {limit n : Nat} {a : Budget}

/-- The buffer of a segment is granted if there is enough for it alone. -/
theorem allocate_segment (ha : a.Idle limit) (hn : n ≤ Segment.maxLen) :
    a.allocate n = if limit < n then (none, a) else
      (some (List.replicate n 0), { a with held := n, peak := max a.peak n }) := by
  have hlong : 0 + n ≤ Unbounded.longest := by
    rw [Nat.zero_add]
    exact Nat.le_trans hn (by decide)
  rw [allocate_eq (by rwa [ha.held_eq]), ha.held_eq, ha.limit_eq, Nat.zero_add]

/-- The buffer for its checksum is granted if there is enough for both. -/
theorem allocate_checksum (ha : a.Idle limit) (hn : n ≤ Segment.maxLen) (peak : Nat) :
    Budget.allocate { a with held := n, peak } (Checksum.pseudoHeaderLen + n) =
      if limit < Checksum.pseudoHeaderLen + 2 * n then (none, { a with held := n, peak }) else
        (some (List.replicate (Checksum.pseudoHeaderLen + n) 0),
          { a with held := Checksum.pseudoHeaderLen + 2 * n
                   peak := max peak (Checksum.pseudoHeaderLen + 2 * n) }) := by
  have hlong : n + (Checksum.pseudoHeaderLen + n) ≤ Unbounded.longest :=
    Nat.le_trans (Nat.add_le_add hn (Nat.add_le_add_left hn _)) (by decide)
  have hsum : n + (Checksum.pseudoHeaderLen + n) = Checksum.pseudoHeaderLen + 2 * n := by omega
  rw [allocate_eq hlong]
  dsimp only
  rw [ha.limit_eq, hsum]

theorem serves (hn : n ≤ Segment.maxLen) (hlimit : Checksum.pseudoHeaderLen + 2 * n ≤ limit) :
    Arena.Serves (Idle limit) n := by
  intro a ha
  have hb := allocate_segment ha hn
  have hs := allocate_checksum ha hn (max a.peak n)
  rw [if_neg (by omega)] at hb hs
  refine ⟨_, _, _, _, hb, List.length_replicate, hs, List.length_replicate,
    fun b' s' hb' hs' => ⟨ha.limit_eq, ?_⟩⟩
  rw [List.length_replicate] at hb' hs'
  show Checksum.pseudoHeaderLen + 2 * n - s'.length - b'.length = 0
  omega

theorem denies (hn : n ≤ Segment.maxLen) (hlimit : limit < Checksum.pseudoHeaderLen + 2 * n) :
    Arena.Denies (Idle limit) n := by
  intro a b a₁ ha he
  have he : a.allocate n = (some b, a₁) := he
  rw [allocate_segment ha hn] at he
  split at he
  · cases he
  · cases he
    have hs := allocate_checksum ha hn (max a.peak n)
    rw [if_pos hlimit] at hs
    exact congrArg Prod.fst hs

end

end Budget

/-! ## Runs -/

namespace Host

/-- Sending on an idle budget fails for want of memory exactly below the threshold. -/
theorem send_threshold {ν : Type} [Network ν] {limit : Nat} {h : Host Budget ν} {k : Key}
    {c : Connection} {f : Flags} {p : Octets} (hk : h.get? k = some c)
    (ha : h.link.arena.Idle limit) (hp : p.length ≤ Link.maxPayload) :
    ∃ a h', h.send k f p = .ok (a, h') ∧ (a = .error .noMemory ↔ limit < 52 + 2 * p.length) := by
  have hneeded : Checksum.pseudoHeaderLen + 2 * (Segment.headerLen + p.length) =
      52 + 2 * p.length := by
    simp only [Checksum.pseudoHeaderLen, Segment.headerLen]
    omega
  obtain hsmall | hlarge := Nat.lt_or_ge limit (52 + 2 * p.length)
  · obtain ⟨l', -, he⟩ := send_denied (f := f)
      (Budget.denies (Link.fits hp) (by rwa [hneeded])) hp hk ha
    exact ⟨_, _, he, iff_of_true rfl hsmall⟩
  · obtain ⟨r, l', -, he⟩ := send_served (f := f)
      (Budget.serves (Link.fits hp) (by rwa [hneeded])) hp hk ha
    exact ⟨_, _, he, iff_of_false (answerOf_ne_noMemory r) (Nat.not_lt.mpr hlarge)⟩

/-- After a run that edits no record and on a budget of `limit` octets, sending a payload of up to
65515 octets fails for want of memory if and only if two octets for each and 52 more are not within
the limit. With 52 octets neither connecting nor receiving fails for want of memory. With fewer all
records are in CLOSED or LISTEN, and connecting and receiving change nothing in the table, nor do
they hand anything over. No record is in CLOSE-WAIT, and neither is one on an arena without limit. -/
theorem budget_thresholds {ν : Type} [Network ν] (cfg : Config) (network : ν) :
    (∀ (limit : Nat) (cs : List (Call Budget ν)),
      (∀ c ∈ cs, c.KeepsRecords ∧ c.BringsArena (Budget.Idle limit)) →
      ∃ log h, (start cfg { limit } network).run cs = .ok (log, h) ∧
        (∀ k c f p, h.get? k = some c → p.length ≤ 65515 → ∃ a h', h.send k f p = .ok (a, h') ∧
          (a = .error .noMemory ↔ limit < 52 + 2 * p.length)) ∧
        (52 ≤ limit →
          (∀ k, ∃ a h', h.connect k = .ok (a, h') ∧ a ≠ .error .noMemory) ∧
          ∀ segment src dst, ∃ a h', h.receive segment src dst = .ok (a, h') ∧
            a ≠ .error .noMemory) ∧
        (limit < 52 → h.StatesIn (· ∈ [.closed, .listen]) ∧
          (∀ k, ∃ a h', h.connect k = .ok (a, h') ∧ h'.table = h.table ∧
            h'.link.network = h.link.network) ∧
          ∀ segment src dst, ∃ a h', h.receive segment src dst = .ok (a, h') ∧
            h'.table = h.table ∧ h'.link.network = h.link.network) ∧
        h.StatesIn (· ≠ .closeWait)) ∧
    ∀ cs : List (Call Unbounded ν), (∀ c ∈ cs, c.KeepsRecords) →
      ∃ log h, (start cfg {} network).run cs = .ok (log, h) ∧ h.StatesIn (· ≠ .closeWait) := by
  constructor
  · intro limit cs hcs
    have hidle : ({ limit } : Budget).Idle limit := ⟨rfl, rfl⟩
    obtain hsmall | hlarge := Nat.lt_or_ge limit 52
    · have hD := Budget.denies (n := Segment.headerLen) (by decide) hsmall
      obtain ⟨log, h, hr, ha, hin⟩ := run_denied (Budget.idle_kept limit) hD hcs cfg hidle network
      refine ⟨log, h, hr, fun k c f p hk hp => send_threshold hk ha hp,
        fun hlarge => absurd hsmall (Nat.not_lt.mpr hlarge),
        fun _ => ⟨hin, connect_denied hD ha, receive_denied hD ha hin⟩, fun k c hk hc => ?_⟩
      have hstate := hin k c hk
      rw [hc] at hstate
      simp at hstate
    · have hS := Budget.serves (n := Segment.headerLen) (by decide) hlarge
      obtain ⟨log, h, hr, ha, hin⟩ := run_served (Budget.idle_kept limit) hS hcs cfg hidle network
      exact ⟨log, h, hr, fun k c f p hk hp => send_threshold hk ha hp,
        fun _ => ⟨connect_served hS ha, receive_served hS ha⟩,
        fun hsmall => absurd hsmall (Nat.not_lt.mpr hlarge), hin⟩
  · intro cs keep
    have hS := Unbounded.reliable.serves (n := Segment.headerLen) (by decide)
    have hcs : ∀ c ∈ cs, c.KeepsRecords ∧ c.BringsArena fun _ : Unbounded => True :=
      fun c hc => ⟨keep c hc, by cases c <;> trivial⟩
    obtain ⟨log, h, hr, -, hin⟩ := run_served (fun _ _ _ _ => trivial) hS hcs cfg trivial network
    exact ⟨log, h, hr, hin⟩

/-- On a budget of 52 octets a connection is opened and closed by the other side, but not one octet
can be sent on it. With one less in the budget it is not opened. -/
theorem budget_thresholds_smallest : ∃ cs : List (Call Budget Outbox),
    cs = [.create ⟨10, 0, 0, 2⟩ 80 5000, .listen ⟨0, 1⟩,
      .receive (Header.segment ⟨80, 5000, ⟨7⟩, {}, .SYN, 0, 0⟩ [] ⟨10, 0, 0, 2⟩ ⟨10, 0, 0, 1⟩)
        ⟨10, 0, 0, 2⟩ ⟨10, 0, 0, 1⟩,
      .receive (Header.segment ⟨80, 5000, ⟨8⟩, {}, .FIN ||| .ACK, 0, 0⟩ [] ⟨10, 0, 0, 2⟩
        ⟨10, 0, 0, 1⟩) ⟨10, 0, 0, 2⟩ ⟨10, 0, 0, 1⟩] ∧
    (∀ c ∈ cs, c.KeepsRecords ∧ c.BringsArena (Budget.Idle 52)) ∧
    (∃ log h h', (start { address := ⟨10, 0, 0, 1⟩ } { limit := 52 }
        { address := ⟨10, 0, 0, 1⟩ }).run cs = .ok (log, h) ∧
      (h.get? ⟨0, 1⟩).map (·.state) = some .lastAck ∧ h.link.arena.peak = 52 ∧
      h.StatesIn (· ≠ .closeWait) ∧ h.send ⟨0, 1⟩ .ACK [0] = .ok (.error .noMemory, h')) ∧
    (∀ c ∈ cs, c.KeepsRecords ∧ c.BringsArena (Budget.Idle 51)) ∧
    ∃ log h, (start { address := ⟨10, 0, 0, 1⟩ } { limit := 51 }
        { address := ⟨10, 0, 0, 1⟩ }).run cs = .ok (log, h) ∧
      (h.get? ⟨0, 1⟩).map (·.state) = some .listen ∧ h.link.arena.peak = 20 ∧
      h.StatesIn (· ∈ [.closed, .listen]) := by
  have hcs (limit : Nat) : ∀ c ∈ ([.create ⟨10, 0, 0, 2⟩ 80 5000, .listen ⟨0, 1⟩,
      .receive (Header.segment ⟨80, 5000, ⟨7⟩, {}, .SYN, 0, 0⟩ [] ⟨10, 0, 0, 2⟩ ⟨10, 0, 0, 1⟩)
        ⟨10, 0, 0, 2⟩ ⟨10, 0, 0, 1⟩,
      .receive (Header.segment ⟨80, 5000, ⟨8⟩, {}, .FIN ||| .ACK, 0, 0⟩ [] ⟨10, 0, 0, 2⟩
        ⟨10, 0, 0, 1⟩) ⟨10, 0, 0, 2⟩ ⟨10, 0, 0, 1⟩] : List (Call Budget Outbox)),
      c.KeepsRecords ∧ c.BringsArena (Budget.Idle limit) := by
    simp [Call.KeepsRecords, Call.BringsArena]
  obtain ⟨hrun, -⟩ :=
    budget_thresholds { address := ⟨10, 0, 0, 1⟩ } ({ address := ⟨10, 0, 0, 1⟩ } : Outbox)
  refine ⟨_, rfl, hcs 52, ?_, hcs 51, ?_⟩
  · obtain ⟨log, h, hr, hsend, -, -, hin⟩ := hrun 52 _ (hcs 52)
    cases hr
    obtain ⟨a, h', he, ha⟩ := hsend ⟨0, 1⟩ _ .ACK [0] rfl (by decide)
    obtain rfl := ha.mpr (by decide)
    exact ⟨_, _, h', rfl, rfl, rfl, hin, he⟩
  · obtain ⟨log, h, hr, -, -, hsmall, -⟩ := hrun 51 _ (hcs 51)
    cases hr
    exact ⟨_, _, rfl, rfl, rfl, (hsmall (by decide)).1⟩

end Host

end TcpEngine
