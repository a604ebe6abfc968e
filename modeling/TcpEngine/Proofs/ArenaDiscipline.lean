import TcpEngine.Arena.Budget
import TcpEngine.Arena.Scripted
import TcpEngine.Network.Outbox
import TcpEngine.Proofs.Registry

/-!
# The discipline of arenas

Sending a segment takes a buffer from the arena and, while that is out, another one for the
checksum. Whatever is missing or has a wrong length on the way, and whatever the network layer says,
each buffer is given back once, with its length, and nothing else is given back.

* `Arena.Balanced`: what such calls make of an arena. Sending keeps to it (`Link.send_balanced`),
  and so does every call (`Host.call_balanced`).
* `Ledger`: an arena that writes down the calls it receives. What it writes is then
  `ArenaCall.Disciplined` (`Ledger.calls_balanced`).
* `Host.arenas_disciplined`: the calls to any arena during one call to a host, and the budget that
  is unused after every run.
-/

namespace TcpEngine

/-! ## Balanced calls -/

namespace Arena

variable {α : Type} [Arena α]

/-- Calls lead from one arena to another. A buffer that was given is given back with its length, the
last one first, and no more than `d` buffers are out at a time. -/
inductive Balanced : Nat → α → α → Prop
  | nil (d : Nat) (a : α) : Balanced d a a
  | refused {d n : Nat} {a a₁ a' : α} : allocate a n = (none, a₁) → Balanced d a₁ a' →
    Balanced d a a'
  /-- While the buffer `b` is out, one less can be so. -/
  | lent {d n : Nat} {a a₁ a₂ a' : α} {b b' : Octets} : allocate a n = (some b, a₁) →
    Balanced d a₁ a₂ → b'.length = b.length → Balanced (d + 1) (release a₂ b') a' →
    Balanced (d + 1) a a'

theorem Balanced.trans {d : Nat} {a a₁ a' : α} (h : Balanced d a a₁) (h' : Balanced d a₁ a') :
    Balanced d a a' := by
  induction h with
  | nil _ _ => exact h'
  | refused he _ ih => exact .refused he (ih h')
  | lent he hin hb _ _ ih => exact .lent he hin hb (ih h')

end Arena

namespace Budget

/-- The budget, after `n` octets were handed out at a time. -/
def raise (n : Nat) (a : Budget) : Budget := { a with peak := max a.peak n }

/-- There is enough left for a request, and it asks for no more than can be addressed. -/
def Allows (a : Budget) (n : Nat) : Prop :=
  a.held + n < UInt64.size ∧ a.held + n ≤ a.limit ∧ n ≤ Unbounded.longest

/-- A request that is granted uses up its length of the budget. -/
theorem allocate_granted {a : Budget} {n : Nat} (h : a.Allows n) :
    a.allocate n =
      (some (List.replicate n 0), raise (a.held + n) { a with held := a.held + n }) := by
  obtain ⟨hsum, hlimit, hlong⟩ := h
  unfold allocate Count.add? Unbounded.buffer?
  rw [if_pos hsum, if_pos hlong]
  exact if_neg (Nat.not_lt.mpr hlimit)

theorem allocate_refused {a : Budget} {n : Nat} (h : ¬ a.Allows n) : a.allocate n = (none, a) := by
  unfold allocate Count.add? Unbounded.buffer?
  by_cases hsum : a.held + n < UInt64.size
  · by_cases hlimit : a.held + n > a.limit
    · simp [hsum, hlimit]
    · have hlong : ¬ n ≤ Unbounded.longest := fun hlong =>
        h ⟨hsum, Nat.not_lt.mp hlimit, hlong⟩
      simp [hsum, hlimit, hlong]
  · simp [hsum]

/-- Balanced calls use up no budget. All that they leave is a higher peak. -/
theorem exists_raise {d : Nat} {a a' : Budget} (h : Arena.Balanced d a a') :
    ∃ n, a' = raise n a := by
  induction h with
  | nil _ a => exact ⟨0, by simp [raise]⟩
  | @refused _ n a a₁ _ he _ ih =>
    have he : a.allocate n = (none, a₁) := he
    by_cases hn : a.Allows n
    · cases he.symm.trans (allocate_granted hn)
    · cases he.symm.trans (allocate_refused hn)
      exact ih
  | @lent _ n a a₁ a₂ a' b b' he _ hb _ hin hout =>
    have he : a.allocate n = (some b, a₁) := he
    by_cases hn : a.Allows n
    · cases he.symm.trans (allocate_granted hn)
      obtain ⟨inner, rfl⟩ := hin
      obtain ⟨outer, rfl⟩ := hout
      rw [List.length_replicate] at hb
      refine ⟨max (a.held + n) (max inner outer), ?_⟩
      simp [raise, Arena.release, release, hb, Nat.max_assoc]
    · cases he.symm.trans (allocate_refused hn)

theorem held_balanced {d : Nat} {a a' : Budget} (h : Arena.Balanced d a a') :
    a'.held = a.held := by
  obtain ⟨n, rfl⟩ := exists_raise h
  rfl

theorem limit_balanced {d : Nat} {a a' : Budget} (h : Arena.Balanced d a a') :
    a'.limit = a.limit := by
  obtain ⟨n, rfl⟩ := exists_raise h
  rfl

end Budget

/-! ## Ledgers -/

/-- An arena with the calls that it has received, in order. -/
structure Ledger (α : Type) where
  arena : α
  calls : List ArenaCall := []
deriving DecidableEq, Repr

namespace Ledger

variable {α : Type} [Arena α]

def allocate (a : Ledger α) (n : Nat) : Option Octets × Ledger α :=
  let (b, arena) := Arena.allocate a.arena n
  (b, { arena, calls := a.calls ++ [.allocate n (b.map List.length)] })

def release (a : Ledger α) (b : Octets) : Ledger α :=
  { arena := Arena.release a.arena b, calls := a.calls ++ [.release b.length] }

end Ledger

instance {α : Type} [Arena α] : Arena (Ledger α) where
  allocate := Ledger.allocate
  release := Ledger.release

/-- While buffers of the lengths `out` are out, the last one first, calls are received until
none is. Only the last buffer out is given back, with its length, and no more than `d` are out at a
time. -/
inductive ArenaCall.Disciplined (d : Nat) : List Nat → List ArenaCall → Prop
  | done : Disciplined d [] []
  | refused {out : List Nat} {n : Nat} {cs : List ArenaCall} : Disciplined d out cs →
    Disciplined d out (.allocate n none :: cs)
  | given {out : List Nat} {n m : Nat} {cs : List ArenaCall} : out.length < d →
    Disciplined d (m :: out) cs → Disciplined d out (.allocate n (some m) :: cs)
  | returned {out : List Nat} {m : Nat} {cs : List ArenaCall} : Disciplined d out cs →
    Disciplined d (m :: out) (.release m :: cs)

namespace Ledger

variable {α : Type} [Arena α] {a a' : Ledger α} {d n : Nat}

theorem calls_allocate {r : Option Octets} (h : Arena.allocate a n = (r, a')) :
    a'.calls = a.calls ++ [.allocate n (r.map List.length)] := by
  cases h
  rfl

/-- Balanced calls can be written in front of calls for which they leave enough buffers. -/
theorem calls_balanced (h : Arena.Balanced d a a') :
    ∃ calls, a'.calls = a.calls ++ calls ∧ ∀ (most : Nat) (out : List Nat) (cs : List ArenaCall),
      out.length + d ≤ most → ArenaCall.Disciplined most out cs →
        ArenaCall.Disciplined most out (calls ++ cs) := by
  induction h with
  | nil _ a => exact ⟨[], (List.append_nil _).symm, fun _ _ _ _ hcs => hcs⟩
  | @refused _ n _ _ _ he _ ih =>
    obtain ⟨calls, hcalls, hd⟩ := ih
    refine ⟨.allocate n none :: calls, ?_, fun most out cs hle hcs => .refused (hd _ _ _ hle hcs)⟩
    rw [hcalls, calls_allocate he, List.append_assoc]
    rfl
  | @lent d n a a₁ a₂ a' b b' he _ hb _ ihin ihout =>
    obtain ⟨inner, hinner, hdin⟩ := ihin
    obtain ⟨outer, houter, hdout⟩ := ihout
    refine ⟨.allocate n (some b.length) :: (inner ++ .release b.length :: outer), ?_, ?_⟩
    · have hrelease : (Arena.release a₂ b').calls = a₂.calls ++ [.release b'.length] := rfl
      rw [houter, hrelease, hinner, calls_allocate he, hb]
      simp
    · -- The buffer lies on top of those in `out` while the inner calls are made.
      intro most out cs hle hcs
      rw [List.cons_append, List.append_assoc]
      refine .given (by omega) (hdin _ _ _ ?_ (.returned (hdout _ _ _ hle hcs)))
      simp only [List.length_cons]
      omega

theorem disciplined_of_balanced (h : Arena.Balanced d a a') :
    ∃ calls, a'.calls = a.calls ++ calls ∧ ArenaCall.Disciplined d [] calls := by
  obtain ⟨calls, hcalls, hd⟩ := calls_balanced h
  refine ⟨calls, hcalls, ?_⟩
  have hall := hd d [] [] (by simp) .done
  rwa [List.append_nil] at hall

end Ledger

/-! ## Sending -/

section

variable {α : Type} [Arena α]

/-- The buffer for a checksum is given back before the checksum is there. -/
theorem segmentChecksum_balanced {arena arena' : α} {header payload : Octets} {src dst : Address}
    {r : Except Error UInt16}
    (he : segmentChecksum arena header payload src dst = .ok (r, arena')) :
    Arena.Balanced 1 arena arena' := by
  obtain ⟨_, _, hc, he'⟩ := segmentChecksum_computed arena header payload src dst
  cases he.symm.trans he'
  cases hc with
  | tooLarge _ => exact .nil _ _
  | noBuffer _ hb => exact .refused hb (.nil _ _)
  | wrongBuffer _ hb _ => exact .lent hb (.nil _ _) rfl (.nil _ _)
  | done _ hb hlen hfilled =>
    refine .lent hb (.nil _ _) ?_ (.nil _ _)
    rw [hfilled, hlen]
    simp

end

namespace Link

variable {α ν : Type} [Arena α] [Network ν] {l l' : Link α ν} {c c' : Connection}
  {a : Except Error Unit}

/-- A buffer that is filled and handed over is given back at last. -/
theorem finish_returns {h : Header} {p b : Octets} (hb : b.length = Segment.headerLen + p.length)
    (he : l.finish c h p b = .ok (a, c', l')) :
    ∃ arena b', Arena.Balanced 1 l.arena arena ∧ b'.length = b.length ∧
      l'.arena = Arena.release arena b' := by
  -- Whatever is written into the buffer, it is full from the start.
  have hlen (sum : UInt16) : (h.octets sum ++ p).length = b.length := by
    rw [List.length_append, Header.length_octets, hb]
  obtain ⟨sum, arena, -, hsum⟩ := segmentChecksum_computed l.arena (h.octets 0) p
    c.tuple.localAddr c.tuple.remoteAddr
  have hbalanced := segmentChecksum_balanced hsum
  cases sum with
  | error e =>
    cases he.symm.trans (finish_failed hb hsum)
    exact ⟨arena, _, hbalanced, hlen 0, rfl⟩
  | ok sum =>
    have hl : l' = (Link.handOver { l with arena } c h (h.octets sum ++ p)).2.2 := by
      rw [← Except.ok.inj (he.symm.trans (finish_done hb hsum))]
    exact ⟨arena, _, hbalanced, hlen sum, by rw [hl, arena_handOver]⟩

/-- Sending has at most two buffers out at a time, and none in the end. -/
theorem send_balanced {f : Flags} {p : Octets} (he : l.send c f p = .ok (a, c', l')) :
    Arena.Balanced 2 l.arena l'.arena := by
  unfold send at he
  dsimp only at he
  split at he
  · cases he
    exact .nil _ _
  · rename_i hp
    split at he
    · rename_i hb
      cases he
      exact .refused hb (.nil _ _)
    · rename_i b arena₁ hb
      split at he
      · cases he
        exact .lent hb (.nil _ _) rfl (.nil _ _)
      · rename_i hlen
        have hlen : b.length = Segment.headerLen + p.length :=
          (Classical.not_not.mp hlen).trans (c.bufferLen_nextHeader f (Nat.le_of_not_lt hp))
        obtain ⟨arena, b', hin, hb', hl⟩ := finish_returns hlen he
        rw [hl]
        exact .lent hb hin hb' (.nil _ _)

theorem along_balanced : Along fun l l' : Link α ν => Arena.Balanced 2 l.arena l'.arena where
  refl _ := .nil _ _
  trans h h' := h.trans h'
  note _ _ := .nil _ _
  send he := send_balanced he

end Link

/-! ## Calls -/

/-- An arena that is brought in has no buffer out. -/
def Call.BringsUnused {ν : Type} : Call Budget ν → Prop
  | .attach arena _ => arena.held = 0
  | _ => True

namespace Host

variable {α ν : Type} [Arena α] [Network ν]

theorem call_balanced {h h' : Host α ν} {c : Call α ν} {a : Answer} (hc : c.KeepsLink)
    (he : h.call c = .ok (a, h')) : Arena.Balanced 2 h.link.arena h'.link.arena :=
  call_along Link.along_balanced hc he

theorem stop_balanced {h : Host α ν} {n : Nat} {l : Link α ν} (he : h.stop = .ok (n, l)) :
    Arena.Balanced 2 h.link.arena l.arena :=
  stop_along Link.along_balanced he

theorem run_unused {cs : List (Call Budget ν)} (hcs : ∀ c ∈ cs, c.BringsUnused) (cfg : Config)
    {arena : Budget} (ha : arena.held = 0) (network : ν) :
    ∃ log h, (start cfg arena network).run cs = .ok (log, h) ∧ h.table.records.WellFormed ∧
      h.link.arena.held = 0 := by
  have hrun : ∃ log h, (start cfg arena network).run cs = .ok (log, h) ∧
      History.Sound log h.table ∧ h.link.arena.held = 0 := by
    refine run_induction ⟨History.sound_start cfg, ha⟩ fun log h c hc ⟨hs, hheld⟩ => ?_
    obtain ⟨a, h', he, hf⟩ := call_effect hs.wellFormed c
    refine ⟨a, h', he, hs.step hf, ?_⟩
    obtain hk | ⟨arena, network, rfl⟩ := c.keepsLink_or
    · rw [Budget.held_balanced (call_balanced hk he), hheld]
    · cases he
      exact hcs _ hc
  obtain ⟨log, h, he, hs, hheld⟩ := hrun
  exact ⟨log, h, he, hs.wellFormed, hheld⟩

/-- After any run, the calls that an operation makes to its arena, of whatever kind that is, are
disciplined: each buffer that is given is given back once, with its length, before the operation
ends, and no more than two are out at a time. So a budget is unused after every run. -/
theorem arenas_disciplined (cfg : Config) :
    (∀ (arena : Ledger α) (network : ν) (cs : List (Call (Ledger α) ν)),
      ∃ log h, (start cfg arena network).run cs = .ok (log, h) ∧
        (∀ c : Call (Ledger α) ν, c.KeepsLink → ∃ a h' calls, h.call c = .ok (a, h') ∧
          h'.link.arena.calls = h.link.arena.calls ++ calls ∧
            ArenaCall.Disciplined 2 [] calls) ∧
        ∃ n l calls, h.stop = .ok (n, l) ∧ l.arena.calls = h.link.arena.calls ++ calls ∧
          ArenaCall.Disciplined 2 [] calls) ∧
    ∀ (limit : Nat) (network : ν) (cs : List (Call Budget ν)), (∀ c ∈ cs, c.BringsUnused) →
      ∃ log h, (start cfg { limit } network).run cs = .ok (log, h) ∧ h.link.arena.held = 0 ∧
        ∃ n l, h.stop = .ok (n, l) ∧ l.arena.held = 0 := by
  constructor
  · intro arena network cs
    obtain ⟨log, h, hr, hs⟩ := run_sound cfg arena network cs
    refine ⟨log, h, hr, fun c hc => ?_, ?_⟩
    · obtain ⟨a, h', he, -⟩ := call_cases hs.wellFormed c
      obtain ⟨calls, hcalls, hd⟩ := Ledger.disciplined_of_balanced (call_balanced hc he)
      exact ⟨a, h', calls, he, hcalls, hd⟩
    · obtain ⟨l, he⟩ := stop_eq hs.wellFormed
      obtain ⟨calls, hcalls, hd⟩ := Ledger.disciplined_of_balanced (stop_balanced he)
      exact ⟨_, l, calls, he, hcalls, hd⟩
  · intro limit network cs hcs
    have hunused : ({ limit } : Budget).held = 0 := rfl
    obtain ⟨log, h, hr, hw, hheld⟩ := run_unused hcs cfg hunused network
    obtain ⟨l, he⟩ := stop_eq hw
    exact ⟨log, h, hr, hheld, _, l, he, by rw [Budget.held_balanced (stop_balanced he), hheld]⟩

/-- The buffer for the checksum of a SYN has a wrong length; and a budget is replaced by one that is
too small for a segment. -/
theorem arenas_disciplined_wrongBuffer :
    (∃ c : Call (Ledger Scripted) Outbox, c = .connect ⟨0, 1⟩ ∧ c.KeepsLink ∧
      ∃ log h a h' calls,
        (start { address := ⟨10, 0, 0, 1⟩ } { arena := { script := [some 0, some 1] } }
          { address := ⟨10, 0, 0, 1⟩ }).run [.create ⟨10, 0, 0, 2⟩ 80 5000] = .ok (log, h) ∧
        h.call c = .ok (a, h') ∧ h'.link.arena.calls = calls ∧
        calls = [.allocate 20 (some 20), .allocate 32 (some 33), .release 33, .release 20] ∧
        ArenaCall.Disciplined 2 [] calls) ∧
    ∃ cs : List (Call Budget Outbox),
      cs = [.create ⟨10, 0, 0, 2⟩ 80 5000, .connect ⟨0, 1⟩,
        .attach { limit := 10 } { address := ⟨10, 0, 0, 1⟩ }, .send ⟨0, 1⟩ .ACK [1]] ∧
      (∀ c ∈ cs, c.BringsUnused) ∧ ∃ log h,
        (start { address := ⟨10, 0, 0, 1⟩ } { limit := 100 } { address := ⟨10, 0, 0, 1⟩ }).run cs =
          .ok (log, h) ∧ h.link.arena.held = 0 := by
  constructor
  · obtain ⟨log, h, hr, hcall, -⟩ := (arenas_disciplined { address := ⟨10, 0, 0, 1⟩ }).1
      { arena := { script := [some 0, some 1] } : Ledger Scripted }
      ({ address := ⟨10, 0, 0, 1⟩ } : Outbox) [.create ⟨10, 0, 0, 2⟩ 80 5000]
    obtain ⟨a, h', calls, he, hcalls, hd⟩ := hcall (.connect ⟨0, 1⟩) trivial
    refine ⟨_, rfl, trivial, log, h, a, h', calls, hr, he, ?_⟩
    cases hr
    cases he
    cases hcalls
    exact ⟨rfl, rfl, hd⟩
  · have hcs : ∀ c ∈ ([.create ⟨10, 0, 0, 2⟩ 80 5000, .connect ⟨0, 1⟩,
        .attach { limit := 10 } { address := ⟨10, 0, 0, 1⟩ }, .send ⟨0, 1⟩ .ACK [1]] :
        List (Call Budget Outbox)), c.BringsUnused := by
      simp [Call.BringsUnused]
    obtain ⟨log, h, hr, hheld, -⟩ := (arenas_disciplined (α := Scripted)
      { address := ⟨10, 0, 0, 1⟩ }).2 100 { address := ⟨10, 0, 0, 1⟩ } _ hcs
    exact ⟨_, rfl, hcs, log, h, hr, hheld⟩

end Host

end TcpEngine
