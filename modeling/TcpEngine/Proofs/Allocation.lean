import TcpEngine.Arena.Scripted
import TcpEngine.Network.Outbox
import TcpEngine.Proofs.Journal
import TcpEngine.Proofs.Recorder
import TcpEngine.Proofs.Run

/-!
# Replies for which there is no memory

A received segment can drive a record through several transitions, and each of these can have
several replies. When a reply is not built for want of memory, only the transition that it is the
first reply of is taken back.

* `Link.Fed.noMemory_cases`: the record is as before, or it has come forward.
* `Host.receive_noMemory`: nothing was committed if and only if no reply went out and the record
  was in LISTEN or ESTABLISHED, which are the states whose first transition has a reply. Receiving
  the segment again is then as receiving it once.
-/

namespace TcpEngine

/-- An event of a received segment. -/
def Event.Arrives (e : Event) : Prop := e ≠ .activeOpen ∧ e ≠ .passiveOpen

theorem Event.arrives_ofHeader (q : Header) :
    ∀ e ∈ (Event.ofHeader q).filterMap id, e.Arrives := by
  intro e he
  obtain ⟨-, rfl⟩ | ⟨-, rfl⟩ | ⟨-, rfl⟩ := Event.mem_ofHeader.mp he
  · exact ⟨by simp, by simp⟩
  · exact ⟨by simp, by simp⟩
  · exact ⟨by simp, by simp⟩

/-- Which states answer to an event of a received segment, and which do not. -/
theorem State.replies_next? {s : State} {e : Event} {t : Transition} (h : s.next? e = some t)
    (he : e.Arrives) :
    (t.replies = [] ∧ (s = .synSent ∨ s = .synReceived)) ∨
    (t.replies ≠ [] ∧ (s = .listen ∨ s = .established)) := by
  cases s <;> cases e <;> cases h <;> simp_all [Event.Arrives, Transition.to]

namespace Link

variable {α ν : Type} [Network ν] {l l' : Link α (Recorder ν)} {c c' : Connection}

/-- Where a record is left when a reply is not built. -/
theorem Fed.noMemory_cases {r : Option Refusal} {es : List Event}
    (h : l.Fed c r es (.error .noMemory) c' l') (hes : ∀ e ∈ es, e.Arrives) :
    (c' = c ∧ l'.network = l.network ∧ (c.state = .listen ∨ c.state = .established)) ∨
    (c'.state ≠ c.state ∧ (l'.network.handed = l.network.handed →
      c.state = .synSent ∨ c.state = .synReceived)) := by
  generalize ha : (Except.error Error.noMemory : Except Error Unit) = a at h
  induction h with
  | nil l c r => cases r <;> cases ha
  | ignored _ _ ih => exact ih (fun e he => hes e (List.mem_cons_of_mem _ he)) ha
  | @carried l _ l' c c₁ c' _ _ _ es t _ hn hc hf _ =>
    subst ha
    obtain ⟨hlt, hle⟩ := State.rank_next? hn
    obtain ⟨c₀, l₀, hr, rfl, rfl⟩ := hc.completed_cases
    refine .inr ⟨?_, ?_⟩
    · intro hs
      have hrank : t.after.rank ≤ c'.state.rank := hf.rank_le
      rw [hs] at hrank
      omega
    · intro hnone
      have hcount := hf.handed_le
      rw [network_settle, hr.handed, hnone, network_note] at hcount
      have hnil : t.replies = [] := List.eq_nil_of_length_eq_zero (by omega)
      obtain ⟨-, hs⟩ | ⟨hne, -⟩ := State.replies_next? hn (hes _ (List.mem_cons_self ..))
      · exact hs
      · exact absurd hnil hne
  | stopped hn hc =>
    obtain ⟨f, rest, hfs, rfl, hu⟩ | ⟨sent, f, rest, r, l₁, hfs, hne, hr, hu⟩ := hc.noMemory_cases
    · obtain ⟨hnil, -⟩ | ⟨-, hs⟩ := State.replies_next? hn (hes _ (List.mem_cons_self ..))
      · rw [hnil] at hfs; cases hfs
      · exact .inl ⟨rfl, hu.network, hs⟩
    · refine .inr ⟨?_, ?_⟩
      · intro hs
        have hlt := (State.rank_next? hn).1
        have hduring := congrArg State.rank (hr.state.symm.trans hs)
        exact absurd hduring (Nat.ne_of_gt hlt)
      · intro hnone
        have hcount := hr.handed
        rw [← hu.network, hnone, network_note] at hcount
        exact absurd (List.eq_nil_of_length_eq_zero (by omega)) hne

end Link

namespace Host

variable {α ν : Type} [Arena α] [Network ν]

/-- On hosts that differ in their arenas and journals only, and with the same arena, a segment is
received in the same way. -/
theorem receive_again {h h' : Host α ν} (ht : h'.table = h.table)
    (hn : h'.link.network = h.link.network) (arena : α) (segment : Octets) (src dst : Address) :
    ∃ a t l js, (h.attach arena h.link.network).receive segment src dst = .ok (a, ⟨t, l⟩) ∧
      (h'.attach arena h'.link.network).receive segment src dst =
        .ok (a, ⟨t, { l with journal := js }⟩) := by
  have halike : (h.attach arena h.link.network).Alike (h'.attach arena h'.link.network) :=
    ⟨ht, rfl, hn⟩
  obtain ⟨a, g, he⟩ := (h.attach arena h.link.network).receive_ok segment src dst
  obtain ⟨g', he', hg⟩ := halike.receive he
  obtain ⟨t', ⟨arena', network', js⟩⟩ := g'
  obtain ⟨rfl, rfl, rfl⟩ : t' = g.table ∧ arena' = g.link.arena ∧ network' = g.link.network :=
    ⟨hg.table, hg.arena, hg.network⟩
  exact ⟨a, g.table, g.link, js, he, he'⟩

/-- When a segment is answered with the lack of memory, the index, the sequence counter and all
records but that of the segment are as before. The whole table is so if and only if nothing was
handed over and the record was in LISTEN or ESTABLISHED. Then, with any arena, the segment can be
received again as if for the first time. -/
theorem receive_noMemory (h : Host α (Recorder ν)) (segment : Octets) (src dst : Address) :
    ∃ a h', h.receive segment src dst = .ok (a, h') ∧ (a = .error .noMemory →
      ∃ q k c, Header.parse segment (h.table.policy.ends src dst) = .ok (.ok q) ∧
        h.table.find? src dst q.srcPort q.dstPort = some k ∧ h.get? k = some c ∧
        (∀ k', k' ≠ k → h'.get? k' = h.get? k') ∧ h'.table.index = h.table.index ∧
        h'.table.nextSeq = h.table.nextSeq ∧
        (h'.table = h.table ↔ h'.link.network.handed = h.link.network.handed ∧
          (c.state = .listen ∨ c.state = .established)) ∧
        (h'.table = h.table → ∀ arena, ∃ a t l js,
          (h.attach arena h.link.network).receive segment src dst = .ok (a, ⟨t, l⟩) ∧
            (h'.attach arena h'.link.network).receive segment src dst =
              .ok (a, ⟨t, { l with journal := js }⟩))) := by
  obtain ⟨r, he⟩ | ⟨q, -, he⟩ | ⟨q, k, -, -, a, ha, he⟩ |
    ⟨q, k, c, hp, hf, hk, a, c', l', hd, he⟩ := h.receive_cases segment src dst
  · exact ⟨_, _, he, fun ha => by cases ha⟩
  · exact ⟨_, _, he, fun ha => by cases ha⟩
  · exact ⟨_, _, he, fun ha' => absurd ha' ha⟩
  · refine ⟨_, _, he, fun ha => ?_⟩
    subst ha
    have hget := get?_hold_self hk c' l'
    have hothers (k' : Key) (hne : k' ≠ k) : (h.hold k c' l').get? k' = h.get? k' := by
      rw [get?_hold hk, if_neg hne]
    refine ⟨q, k, c, hp, hf, hk, hothers, by simp, by simp, ?_⟩
    obtain ⟨rfl, hnet, hs⟩ | ⟨hne, hs⟩ := hd.noMemory_cases (Event.arrives_ofHeader q)
    · have ht : (h.hold k c' l').table = h.table := by rw [hold_self hk]
      have hnet' : (h.hold k c' l').link.network = h.link.network := hnet
      refine ⟨iff_of_true ht ⟨by rw [hnet'], hs⟩, fun _ arena => ?_⟩
      exact receive_again ht hnet' arena segment src dst
    · have hchanged : (h.hold k c' l').table ≠ h.table := fun ht => by
        have hsame : (h.hold k c' l').get? k = some c := by
          rw [← hk]
          exact congrArg (fun t => t.get? k) ht
        rw [hget] at hsame
        cases hsame
        exact hne rfl
      refine ⟨iff_of_false hchanged ?_, fun ht => absurd ht hchanged⟩
      rintro ⟨hnone, hl | he⟩
      · obtain hs' | hs' := hs hnone <;> rw [hl] at hs' <;> cases hs'
      · obtain hs' | hs' := hs hnone <;> rw [he] at hs' <;> cases hs'

/-- An ACK with a FIN comes in SYN-SENT, and there is no memory for the reply to the FIN: the
connection is established all the same. -/
theorem established_without_memory : ∃ log h h',
    (start { address := ⟨10, 0, 0, 1⟩ } ({ script := [some 0, some 0, none] } : Scripted)
      ({ layer := { address := ⟨10, 0, 0, 1⟩ } } : Recorder Outbox)).run
      [.create ⟨10, 0, 0, 2⟩ 80 5000, .connect ⟨0, 1⟩] = .ok (log, h) ∧
    h.receive (Header.segment ⟨80, 5000, {}, {}, .ACK ||| .FIN, 0, 0⟩ []
      ⟨10, 0, 0, 2⟩ ⟨10, 0, 0, 1⟩) ⟨10, 0, 0, 2⟩ ⟨10, 0, 0, 1⟩ = .ok (.error .noMemory, h') ∧
    (h.get? ⟨0, 1⟩).map (·.state) = some .synSent ∧
    (h'.get? ⟨0, 1⟩).map (·.state) = some .established :=
  ⟨_, _, _, rfl, rfl, rfl, rfl⟩

end Host

end TcpEngine
