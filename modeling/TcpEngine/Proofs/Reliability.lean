import TcpEngine.Proofs.Transitions

/-!
# Arenas that do not fail

Sending a segment takes two buffers. An arena that grants both, whenever it is asked, lets every
segment be handed over, and only the network layer can have anything to say against it.

* `Arena.Serves`: both buffers of a segment of a given length are granted.
* `Arena.Reliable`: every request of a host is granted.
* `Host.send_served`, `Host.reply_served`, `Host.carryOut_served`: sending, replies and transitions
  are completed.
* `Host.feed_served`: all events are fed to a record, and what is fed to it later is fed behind
  them.
-/

namespace TcpEngine

namespace Arena

variable {α : Type} [Arena α]

/-- The arenas in `P` grant the buffer of a segment of `n` octets and beside it the one for its
checksum. When both are given back, whatever was written into them, the arena is in `P` again. -/
def Serves (P : α → Prop) (n : Nat) : Prop :=
  ∀ a, P a → ∃ b a₁ s a₂, allocate a n = (some b, a₁) ∧ b.length = n ∧
    allocate a₁ (Checksum.pseudoHeaderLen + n) = (some s, a₂) ∧
    s.length = Checksum.pseudoHeaderLen + n ∧
    ∀ b' s', b'.length = b.length → s'.length = s.length → P (release (release a₂ s') b')

/-- The arenas in `P` never fail: they grant every buffer that a host can ask for, and whatever is
allocated or released, they stay in `P`. -/
structure Reliable (P : α → Prop) : Prop where
  allocate : ∀ a n, P a → n ≤ Checksum.pseudoHeaderLen + Segment.maxLen →
    ∃ b a', Arena.allocate a n = (some b, a') ∧ b.length = n ∧ P a'
  release : ∀ a b, P a → P (Arena.release a b)

theorem Reliable.serves {P : α → Prop} (h : Reliable P) {n : Nat} (hn : n ≤ Segment.maxLen) :
    Serves P n := by
  intro a ha
  obtain ⟨b, a₁, hb, hlen, h₁⟩ := h.allocate a n ha (Nat.le_trans hn (Nat.le_add_left ..))
  obtain ⟨s, a₂, hs, hlen', h₂⟩ := h.allocate a₁ _ h₁ (Nat.add_le_add_left hn _)
  exact ⟨b, a₁, s, a₂, hb, hlen, hs, hlen', fun b' s' _ _ => h.release _ _ (h.release _ _ h₂)⟩

end Arena

/-- An arena without a limit grants all that a host asks for. -/
theorem Unbounded.reliable : Arena.Reliable fun _ : Unbounded => True where
  allocate a n _ hn := by
    have hlong : n ≤ longest := Nat.le_trans hn (by decide)
    exact ⟨List.replicate n 0, a, by simp [Arena.allocate, buffer?, hlong],
      List.length_replicate .., trivial⟩
  release _ _ _ := trivial

/-! ## Sending -/

namespace Link

variable {α ν : Type} [Arena α] [Network ν] {P : α → Prop} {l : Link α ν}

omit [Arena α] [Network ν] in
theorem arena_settle (l : Link α ν) (c : Connection) (s : State) :
    (l.settle c s).arena = l.arena := by
  unfold settle
  split <;> rfl

/-- A segment with both its buffers is handed over. -/
theorem send_served {f : Flags} {p : Octets} (hS : Arena.Serves P (Segment.headerLen + p.length))
    (hp : p.length ≤ maxPayload) (ha : P l.arena) (c : Connection) :
    ∃ r l', l.Handed c f p r l' ∧ P l'.arena ∧
      l.send c f p = .ok (Host.answerOf r, c.advance f p, l') := by
  obtain ⟨b, a₁, s, a₂, hb, hlen, hs, hslen, hback⟩ := hS _ ha
  obtain ⟨s', hs', hsum⟩ := segmentChecksum_granted (c.nextHeader f p) hp hs hslen
    c.tuple.localAddr c.tuple.remoteAddr
  obtain ⟨r, l', hl, he⟩ :=
    handOver_handed { l with arena := Arena.release a₂ s' } c f p
  have harena := arena_handOver { l with arena := Arena.release a₂ s' } c (c.nextHeader f p)
    (c.segment f p)
  rw [he] at harena
  refine ⟨r, l', hl.of_arena, ?_, ?_⟩
  · rw [harena]
    refine hback _ _ ?_ hs'
    rw [hlen]
    exact List.length_append ..
  · unfold send
    rw [if_neg (Nat.not_lt.mpr hp), show c.header f (UInt16.ofNat p.length) = c.nextHeader f p
      from rfl]
    dsimp only
    rw [c.bufferLen_nextHeader f hp, hb]
    dsimp only
    rw [if_neg (not_not_intro hlen)]
    exact (finish_done hlen hsum).trans (congrArg Except.ok he)

end Link

/-! ## The operations on a record -/

namespace Host

variable {α ν : Type} [Arena α] [Network ν] {P : α → Prop} {h : Host α ν} {k : Key}
  {c : Connection}

theorem send_served {f : Flags} {p : Octets} (hS : Arena.Serves P (Segment.headerLen + p.length))
    (hp : p.length ≤ Link.maxPayload) (hk : h.get? k = some c) (ha : P h.link.arena) :
    ∃ r l', P l'.arena ∧ h.send k f p = .ok (answerOf r, h.hold k (c.advance f p) l') := by
  obtain ⟨r, l', -, ha', he⟩ := Link.send_served hS hp ha c
  exact ⟨r, l', ha', send_eq hk he⟩

/-- All replies are handed over. -/
theorem reply_served (hS : Arena.Serves P Segment.headerLen) (hk : h.get? k = some c)
    (ha : P h.link.arena) (snapshot : Connection) (first : Bool) (refusal : Option Refusal)
    (fs : List Flags) :
    ∃ r c' l', P l'.arena ∧
      h.reply k snapshot first refusal fs = .ok (.ok (refusal <|> r), h.hold k c' l') := by
  induction fs generalizing h c first refusal with
  | nil =>
    refine ⟨none, c, h.link, ha, ?_⟩
    rw [hold_self hk]
    cases refusal <;> rfl
  | cons f fs ih =>
    obtain ⟨r, l₁, ha₁, hsend⟩ := send_served (f := f) (p := []) hS (Nat.zero_le _) hk ha
    obtain ⟨r', c', l', ha', he'⟩ :=
      ih (get?_hold_self hk (c.advance f []) l₁) ha₁ false (refusal <|> r)
    refine ⟨r <|> r', c', l', ha', ?_⟩
    rw [reply_cons hsend, he', hold_hold hk]
    cases refusal <;> rfl

/-- A transition is completed. -/
theorem carryOut_served (hS : Arena.Serves P Segment.headerLen) (hk : h.get? k = some c)
    (ha : P h.link.arena) (event : Event) (t : Transition) :
    ∃ r c' l', P l'.arena ∧ h.carryOut k event t = .ok (answerOf r, h.hold k c' l') := by
  have hk₁ := get?_hold_self hk (c.step t) (h.link.note (.moved c.tuple c.state event t.during))
  obtain ⟨r, c₁, l₁, ha₁, he⟩ := reply_served hS hk₁ ha c true none t.replies
  refine ⟨r, { c₁ with state := t.after }, l₁.settle c₁ t.after, ?_, ?_⟩
  · rwa [Link.arena_settle]
  · rw [hold_hold hk] at he
    rw [carryOut_completed hk he (get?_hold_self hk c₁ l₁), hold_hold hk, link_hold]
    cases r <;> rfl

/-- All events are fed to the record, and what comes behind them finds the record as they have left
it. A refusal from before only counts in the answer. -/
theorem feed_served (hS : Arena.Serves P Segment.headerLen) (hk : h.get? k = some c)
    (ha : P h.link.arena) (es : List Event) :
    ∃ r c' l', P l'.arena ∧ ∀ refusal es',
      h.feed k refusal (es ++ es') = (h.hold k c' l').feed k (refusal <|> r) es' := by
  induction es generalizing h c with
  | nil =>
    refine ⟨none, c, h.link, ha, fun refusal es' => ?_⟩
    rw [hold_self hk]
    cases refusal <;> rfl
  | cons e es ih =>
    cases hn : c.state.next? e with
    | none =>
      let l₁ := h.link.note (.ignored c.tuple e c.state)
      obtain ⟨r, c', l', ha', hf⟩ := ih (get?_hold_self hk c l₁) ha
      refine ⟨r, c', l', ha', fun refusal es' => ?_⟩
      rw [← hold_hold hk c c' l₁ l', ← hf, List.cons_append, feed_ignored hk hn]
    | some t =>
      obtain ⟨r₁, c₁, l₁, ha₁, hc⟩ := carryOut_served hS hk ha e t
      obtain ⟨r, c', l', ha', hf⟩ := ih (get?_hold_self hk c₁ l₁) ha₁
      refine ⟨r₁ <|> r, c', l', ha', fun refusal es' => ?_⟩
      have hor : (refusal <|> (r₁ <|> r)) = ((refusal <|> r₁) <|> r) := by
        cases refusal <;> rfl
      rw [hor, ← hold_hold hk c₁ c' l₁ l', ← hf, List.cons_append, feed_carried hk hn hc]

end Host

end TcpEngine
