import TcpEngine.Arena.Budget
import TcpEngine.Network.Outbox
import TcpEngine.Proofs.Run

/-!
# The registry of connections

The index of a host and its records over a run. A history tells which record was created under
which four-tuple (`History.createdAs`), and how many were created and closed.

* `Sound`: the slot map is well-formed, every live record was created, and the counts agree. Every
  call keeps this (`Sound.step`).
* `Registers (createdAs log)`: the registrations are those of the live records, each under the
  four-tuple it was created under. A call keeps this if and only if it closes no record, or one
  that has the four-tuple it was created under (`registers_step`).
* `Regular`: all of this, and that the live records have different four-tuples. Every call keeps it
  that leaves addresses and ports alone (`Regular.step`, `Regular.unique`).
-/

namespace TcpEngine

theorem FourTuple.eq_ofSegment_iff {u : FourTuple} {src dst : Address} {srcPort dstPort : UInt16} :
    u = .ofSegment src dst srcPort dstPort ↔ u.localAddr = dst ∧ u.remoteAddr = src ∧
      u.localPort = dstPort ∧ u.remotePort = srcPort := by
  cases u
  simp [FourTuple.ofSegment]

/-- A call that does not change the addresses and ports of a record. -/
def Call.KeepsTuple {α ν : Type} : Call α ν → Prop
  | .edit _ f => ∀ c, (f c).tuple = c.tuple
  | _ => True

namespace Entry

variable {α ν : Type} {e : Entry α ν}

/-- A record is created with the local address of the table. -/
theorem localAddr_created {k : Key} {u : FourTuple} (h : e.created? = some (k, u)) :
    u.localAddr = e.before.table.address := by
  unfold created? at h
  split at h
  · cases h; rfl
  · cases h

theorem tuple_replaced {k : Key} {c c' : Connection} (keep : e.call.KeepsTuple)
    (h : c'.fixed = c.fixed ∨ ∃ f, e.call = .edit k f ∧ c' = f c) : c'.tuple = c.tuple := by
  obtain hf | ⟨f, hcall, rfl⟩ := h
  · exact Connection.tuple_eq hf
  · rw [hcall] at keep
    exact keep c

end Entry

namespace History

variable {α ν : Type}

/-- The four-tuple under which the record with the key `k` was created. -/
def createdAs : History α ν → Key → Option FourTuple
  | [], _ => none
  | e :: log, k => match e.created? with
    | some (k', u) => if k = k' then some u else createdAs log k
    | none => createdAs log k

/-- The number of records that were created. -/
def creates (log : History α ν) : Nat := log.countP fun e => e.created?.isSome

/-- The number of records that were closed. -/
def closes (log : History α ν) : Nat := log.countP fun e => e.closed?.isSome

variable {log : History α ν} {e : Entry α ν} {k : Key} {u : FourTuple}

theorem createdAs_created (h : e.created? = some (k, u)) (k' : Key) :
    createdAs (e :: log) k' = if k' = k then some u else createdAs log k' := by
  simp [createdAs, h]

theorem createdAs_other (h : e.created? = none) : createdAs (e :: log) = createdAs log := by
  funext k'
  simp [createdAs, h]

theorem creates_cons : creates (e :: log) = creates log + e.created?.isSome.toNat := by
  unfold creates
  rw [List.countP_cons]
  cases e.created?.isSome <;> rfl

theorem closes_cons : closes (e :: log) = closes log + e.closed?.isSome.toNat := by
  unfold closes
  rw [List.countP_cons]
  cases e.closed?.isSome <;> rfl

/-! ## What every call keeps -/

/-- A table fits its history. -/
structure Sound (log : History α ν) (t : ConnectionTable) : Prop where
  wellFormed : t.records.WellFormed
  known : ∀ k c, t.get? k = some c → ∃ u, createdAs log k = some u
  count : t.len + closes log = creates log

theorem sound_start (cfg : Config) : Sound ([] : History α ν) (.new cfg) where
  wellFormed := SlotMap.empty_wellFormed _
  known := by
    intro k c hk
    cases hk
  count := rfl

theorem Sound.step {t : ConnectionTable} (h : Sound log e.before.table) (he : e.Effect t) :
    Sound (e :: log) t := by
  have hcount := h.count
  cases he with
  | created hc hd _ hm =>
    refine ⟨hm.wellFormed, ?_, ?_⟩
    · intro k' c' hk'
      rw [ConnectionTable.get?_enroll hm] at hk'
      rw [createdAs_created hc]
      split at hk'
      · rename_i hkk
        exact ⟨_, if_pos hkk⟩
      · rename_i hne
        rw [if_neg hne]
        exact h.known k' c' hk'
    · rw [creates_cons, closes_cons, hc, hd, ConnectionTable.len_enroll hm]
      simp only [Option.isSome_some, Option.isSome_none, Bool.toNat_true, Bool.toNat_false]
      omega
  | @closed k c m hc hd hk hm =>
    refine ⟨hm.wellFormed, ?_, ?_⟩
    · intro k' c' hk'
      rw [ConnectionTable.get?_drop hm] at hk'
      rw [createdAs_other hc]
      split at hk'
      · cases hk'
      · exact h.known k' c' hk'
    · have hlen := ConnectionTable.len_drop hm c.tuple
      rw [creates_cons, closes_cons, hc, hd]
      simp only [Option.isSome_some, Option.isSome_none, Bool.toNat_true, Bool.toNat_false]
      omega
  | replaced hc hd hk _ =>
    refine ⟨?_, ?_, ?_⟩
    · rw [ConnectionTable.put_eq hk]
      exact h.wellFormed.store hk _
    · intro k' c' hk'
      rw [ConnectionTable.get?_put hk] at hk'
      rw [createdAs_other hc]
      split at hk'
      · rename_i hkk
        subst hkk
        exact h.known _ _ hk
      · exact h.known k' c' hk'
    · rw [creates_cons, closes_cons, hc, hd, ConnectionTable.len_put]
      exact hcount
  | kept hc hd =>
    refine ⟨h.wellFormed, ?_, ?_⟩
    · rw [createdAs_other hc]
      exact h.known
    · rw [creates_cons, closes_cons, hc, hd]
      exact hcount

/-- The call closes no live record, or one that has the four-tuple it was created under. -/
def Rightful (log : History α ν) (e : Entry α ν) : Prop :=
  ∀ k c, e.call = .close k → e.before.get? k = some c → createdAs log k = some c.tuple

/-- Rightful calls are those that keep the registrations. -/
theorem registers_step {t : ConnectionTable} (hs : Sound log e.before.table)
    (hr : e.before.table.Registers (createdAs log)) (he : e.Effect t) :
    t.Registers (createdAs (e :: log)) ↔ Rightful log e := by
  have hopen {k' : Key} {c' : Connection} (hd : e.closed? = none) (hc : e.call = .close k') :
      e.before.get? k' ≠ some c' := fun hk => by
    rw [Entry.closed?_eq_some.mpr ⟨hc, c', hk⟩] at hd; cases hd
  cases he with
  | created hc hd hu hm =>
    rw [funext (createdAs_created hc)]
    exact iff_of_true (hr.enroll hu hm) fun k' c' hk' hl => absurd hl (hopen hd hk')
  | closed hc hd hk hm =>
    obtain ⟨hcall, -⟩ := Entry.closed?_eq_some.mp hd
    obtain ⟨u, hu⟩ := hs.known _ _ hk
    rw [createdAs_other hc, hr.drop_iff hk hm hu]
    constructor
    · rintro rfl k' c' hk' hl
      cases hcall.symm.trans hk'
      cases hk.symm.trans hl
      exact hu
    · intro h
      exact (Option.some.inj (hu.symm.trans (h _ _ hcall hk))).symm
  | replaced hc hd _ _ =>
    rw [createdAs_other hc]
    exact iff_of_true (hr.put _ _) fun k' c' hk' hl => absurd hl (hopen hd hk')
  | kept hc hd =>
    rw [createdAs_other hc]
    exact iff_of_true hr fun k' c' hk' hl => absurd hl (hopen hd hk')

/-- Every live record has the four-tuple it was created under. -/
def Named (log : History α ν) (t : ConnectionTable) : Prop :=
  ∀ k c, t.get? k = some c → createdAs log k = some c.tuple

theorem Named.rightful (h : Named log e.before.table) : Rightful log e :=
  fun k c _ hk => h k c hk

theorem Named.step {t : ConnectionTable} (h : Named log e.before.table) (keep : e.call.KeepsTuple)
    (he : e.Effect t) : Named (e :: log) t := by
  intro k' c' hk'
  cases he with
  | created hc _ _ hm =>
    rw [ConnectionTable.get?_enroll hm] at hk'
    rw [createdAs_created hc]
    split at hk'
    · rename_i hkk
      cases hk'
      exact if_pos hkk
    · rename_i hne
      rw [if_neg hne]
      exact h k' c' hk'
  | closed hc _ _ hm =>
    rw [ConnectionTable.get?_drop hm] at hk'
    rw [createdAs_other hc]
    split at hk'
    · cases hk'
    · exact h k' c' hk'
  | replaced hc _ hk hf =>
    rw [ConnectionTable.get?_put hk] at hk'
    rw [createdAs_other hc]
    split at hk'
    · rename_i hkk
      cases hk'
      subst hkk
      rw [h _ _ hk, Entry.tuple_replaced keep hf]
    · exact h k' c' hk'
  | kept hc _ =>
    rw [createdAs_other hc]
    exact h k' c' hk'

/-- Every live record has the local address of its table. -/
def Local (t : ConnectionTable) : Prop := ∀ k c, t.get? k = some c → c.tuple.localAddr = t.address

theorem Local.step {t : ConnectionTable} (h : Local e.before.table) (keep : e.call.KeepsTuple)
    (he : e.Effect t) : Local t := by
  intro k' c' hk'
  cases he with
  | @created k u m hc _ _ hm =>
    rw [ConnectionTable.get?_enroll hm] at hk'
    split at hk'
    · cases hk'
      exact Entry.localAddr_created hc
    · exact h k' c' hk'
  | closed _ _ _ hm =>
    rw [ConnectionTable.get?_drop hm] at hk'
    split at hk'
    · cases hk'
    · exact h k' c' hk'
  | @replaced k c _ _ _ hk hf =>
    rw [ConnectionTable.address_put]
    rw [ConnectionTable.get?_put hk] at hk'
    split at hk'
    · cases hk'
      rw [Entry.tuple_replaced keep hf]
      exact h k c hk
    · exact h k' c' hk'
  | kept _ _ => exact h k' c' hk'

/-- What calls keep that leave addresses and ports alone. -/
structure Regular (log : History α ν) (t : ConnectionTable) : Prop where
  sound : Sound log t
  registers : t.Registers (createdAs log)
  named : Named log t
  home : Local t

theorem Regular.step {t : ConnectionTable} (h : Regular log e.before.table)
    (keep : e.call.KeepsTuple) (he : e.Effect t) : Regular (e :: log) t where
  sound := h.sound.step he
  registers := (registers_step h.sound h.registers he).mpr h.named.rightful
  named := h.named.step keep he
  home := h.home.step keep he

theorem Regular.find?_iff {t : ConnectionTable} (h : Regular log t) (u : FourTuple) (k : Key) :
    t.index.find? u = some k ↔ ∃ c, t.get? k = some c ∧ c.tuple = u := by
  rw [h.registers u k]
  constructor
  · rintro ⟨⟨c, hk⟩, hu⟩
    exact ⟨c, hk, Option.some.inj ((h.named k c hk).symm.trans hu)⟩
  · rintro ⟨c, hk, rfl⟩
    exact ⟨⟨c, hk⟩, h.named k c hk⟩

/-- No two live records have the same addresses and ports. -/
theorem Regular.unique {t : ConnectionTable} (h : Regular log t) {k k' : Key} {c c' : Connection}
    (hk : t.get? k = some c) (hk' : t.get? k' = some c') (hc : c.tuple = c'.tuple) : k = k' := by
  have hf := (h.find?_iff c.tuple k).mpr ⟨c, hk, rfl⟩
  have hf' := (h.find?_iff c'.tuple k').mpr ⟨c', hk', rfl⟩
  rw [hc, hf'] at hf
  exact (Option.some.inj hf).symm

end History

/-! ## Registrations -/

namespace Host

variable {α ν : Type}

theorem registers_start (cfg : Config) :
    (ConnectionTable.new cfg).Registers (History.createdAs ([] : History α ν)) := by
  intro u k
  refine iff_of_false (fun h => ?_) fun h => ?_
  · cases h
  · cases h.2

theorem regular_start (cfg : Config) : History.Regular ([] : History α ν) (.new cfg) where
  sound := History.sound_start cfg
  registers := registers_start cfg
  named k c hk := by cases hk
  home k c hk := by cases hk

theorem stop_eq {h : Host α ν} (hw : h.table.records.WellFormed) :
    ∃ l, h.stop = .ok (h.table.len, l) := by
  obtain ⟨ns, he⟩ := ConnectionTable.clear_eq hw
  exact ⟨(h.notes ns).link, by unfold stop; rw [he]; rfl⟩

/-- The registrations of a host are those of its live records, each under the four-tuple it was
created under. No stale key is registered, and a four-tuple is taken for new records only if a live
record was created under it. -/
structure Registered (log : History α ν) (h : Host α ν) : Prop where
  find : ∀ src dst srcPort dstPort k, h.table.find? src dst srcPort dstPort = some k ↔
    ∃ c, h.get? k = some c ∧ History.createdAs log k = some (.ofSegment src dst srcPort dstPort)
  live : ∀ src dst srcPort dstPort k, h.table.find? src dst srcPort dstPort = some k →
    ∃ c, h.get? k = some c
  taken : ∀ remoteAddr remotePort localPort h',
    h.create remoteAddr remotePort localPort = .ok (.error .notPermitted, h') →
    ∃ k c, h.get? k = some c ∧
      History.createdAs log k = some (h.table.tupleTo remoteAddr remotePort localPort)

/-- The registration of `k` was removed, and no other was. -/
def Unregistered (k : Key) (h h' : Host α ν) : Prop :=
  ∀ src dst srcPort dstPort, h'.table.find? src dst srcPort dstPort =
    if h.table.find? src dst srcPort dstPort = some k then none
    else h.table.find? src dst srcPort dstPort

theorem registered_iff {log : History α ν} {h : Host α ν} (hs : History.Sound log h.table) :
    Registered log h ↔ h.table.Registers (History.createdAs log) := by
  constructor
  · rintro hr ⟨dst, src, dstPort, srcPort⟩ k
    have hf := hr.find src dst srcPort dstPort k
    rw [exists_and_right] at hf
    exact hf
  · intro hr
    refine ⟨?_, ?_, ?_⟩
    · intro src dst srcPort dstPort k
      rw [exists_and_right]
      exact hr _ k
    · intro src dst srcPort dstPort k hf
      exact ((hr _ k).mp hf).1
    · intro remoteAddr remotePort localPort h' hc
      unfold create at hc
      obtain ⟨⟨k, hf⟩, -⟩ | ⟨-, -, he⟩ | ⟨-, k, m, -, he⟩ :=
        ConnectionTable.create_cases hs.wellFormed remoteAddr remotePort localPort
      · obtain ⟨⟨c, hk⟩, hu⟩ := (hr _ k).mp hf
        exact ⟨k, c, hk, hu⟩
      · rw [he] at hc; cases hc
      · rw [he] at hc; cases hc

/-- Closing a record that has the four-tuple it was created under removes its registration. -/
theorem close_unregistered {log : History α ν} {h : Host α ν} {k : Key}
    (hs : History.Sound log h.table) (hr : h.table.Registers (History.createdAs log))
    (hk : ∀ c, h.get? k = some c → History.createdAs log k = some c.tuple) :
    ∃ h', h.close k = .ok h' ∧ Unregistered k h h' := by
  unfold close
  cases hl : h.get? k with
  | none =>
    rw [ConnectionTable.close_stale hl]
    refine ⟨h, rfl, fun src dst srcPort dstPort => (if_neg fun hf => ?_).symm⟩
    obtain ⟨⟨c, hc⟩, -⟩ := (hr _ k).mp hf
    exact absurd hc (by rw [show h.table.get? k = none from hl]; simp)
  | some c =>
    obtain ⟨m, -, he⟩ := ConnectionTable.close_live hs.wellFormed hl
    rw [he]
    refine ⟨_, rfl, fun src dst srcPort dstPort => ?_⟩
    have hself (u : FourTuple) : h.table.index.find? u = some k ↔ u = c.tuple := by
      rw [hr u k]
      constructor
      · rintro ⟨-, hu⟩
        exact Option.some.inj (hu.symm.trans (hk c hl))
      · rintro rfl
        exact ⟨⟨c, hl⟩, hk c hl⟩
    unfold ConnectionTable.find?
    rw [table_notes]
    dsimp only
    rw [ConnectionTable.find?_drop]
    simp only [hself]

/-! ## Runs -/

variable [Arena α] [Network ν]

theorem run_sound (cfg : Config) (arena : α) (network : ν) (cs : List (Call α ν)) :
    ∃ log h, (start cfg arena network).run cs = .ok (log, h) ∧ History.Sound log h.table := by
  refine run_induction (History.sound_start cfg) fun log h c _ hs => ?_
  obtain ⟨a, h', he, hf⟩ := call_effect hs.wellFormed c
  exact ⟨a, h', he, hs.step hf⟩

theorem run_regular {cs : List (Call α ν)} (keep : ∀ c ∈ cs, c.KeepsTuple) (cfg : Config)
    (arena : α) (network : ν) :
    ∃ log h, (start cfg arena network).run cs = .ok (log, h) ∧ History.Regular log h.table := by
  refine run_induction (regular_start cfg) fun log h c hc hr => ?_
  obtain ⟨a, h', he, hf⟩ := call_effect hr.sound.wellFormed c
  exact ⟨a, h', he, hr.step (keep c hc) hf⟩

/-- The registrations after a run whose edits leave addresses and ports alone. -/
theorem run_registers {cs : List (Call α ν)} (keep : ∀ c ∈ cs, c.KeepsTuple) (cfg : Config)
    (arena : α) (network : ν) :
    ∃ log h, (start cfg arena network).run cs = .ok (log, h) ∧ History.Sound log h.table ∧
      ∀ u k, h.table.index.find? u = some k ↔ ∃ c, h.get? k = some c ∧ c.tuple = u := by
  obtain ⟨log, h, he, hr⟩ := run_regular keep cfg arena network
  exact ⟨log, h, he, hr.sound, hr.find?_iff⟩

/-- As long as the user leaves addresses and ports alone, a key is found if and only if it is that
of a live record with these addresses and ports. So no two live records share them, every live
record is found, no stale key is, and the number of live records is that of the records created
without those closed. -/
theorem find?_iff_live {cs : List (Call α ν)} (keep : ∀ c ∈ cs, c.KeepsTuple) (cfg : Config)
    (arena : α) (network : ν) :
    ∃ log h, (start cfg arena network).run cs = .ok (log, h) ∧
      (∀ src dst srcPort dstPort k, h.table.find? src dst srcPort dstPort = some k ↔
        ∃ c, h.get? k = some c ∧ c.tuple.localAddr = dst ∧ c.tuple.remoteAddr = src ∧
          c.tuple.localPort = dstPort ∧ c.tuple.remotePort = srcPort) ∧
      (∀ k k' c c', h.get? k = some c → h.get? k' = some c' → c.tuple = c'.tuple → k = k') ∧
      (∀ k c, h.get? k = some c → h.table.find? c.tuple.remoteAddr c.tuple.localAddr
        c.tuple.remotePort c.tuple.localPort = some k) ∧
      (∀ k, h.get? k = none → ∀ src dst srcPort dstPort,
        h.table.find? src dst srcPort dstPort ≠ some k) ∧
      h.table.len + History.closes log = History.creates log ∧
      ∃ l, h.stop = .ok (History.creates log - History.closes log, l) := by
  obtain ⟨log, h, he, hs, hr⟩ := run_registers keep cfg arena network
  have hlive {k : Key} {c : Connection} (hk : h.get? k = some c) :
      h.table.index.find? c.tuple = some k := (hr c.tuple k).mpr ⟨c, hk, rfl⟩
  refine ⟨log, h, he, ?_, ?_, ?_, ?_, hs.count, ?_⟩
  · intro src dst srcPort dstPort k
    show h.table.index.find? (.ofSegment src dst srcPort dstPort) = some k ↔ _
    simp only [hr, FourTuple.eq_ofSegment_iff]
  · intro k k' c c' hk hk' hc
    have hf := hlive hk
    rw [hc, hlive hk'] at hf
    exact (Option.some.inj hf).symm
  · intro k c hk
    exact hlive hk
  · intro k hk src dst srcPort dstPort hf
    obtain ⟨c, hc, -⟩ := (hr _ k).mp hf
    rw [hk] at hc
    cases hc
  · obtain ⟨l, hl⟩ := stop_eq hs.wellFormed
    have hcount := hs.count
    exact ⟨l, by rw [hl, show History.creates log - History.closes log = h.table.len by omega]⟩

/-- A record is created, its window is changed, and it is closed. -/
theorem find?_iff_live_window : ∃ cs : List (Call Budget Outbox),
    cs = [.create ⟨10, 0, 0, 2⟩ 80 5000, .edit ⟨0, 1⟩ fun c => { c with window := 1 },
      .close ⟨0, 1⟩] ∧ (∀ c ∈ cs, c.KeepsTuple) ∧
    ∃ log h, (start { address := ⟨10, 0, 0, 1⟩ } { limit := 0 }
      { address := ⟨10, 0, 0, 1⟩ }).run cs = .ok (log, h) ∧
      h.table.len + History.closes log = History.creates log := by
  have keep : ∀ c ∈ ([.create ⟨10, 0, 0, 2⟩ 80 5000,
      .edit ⟨0, 1⟩ fun c => { c with window := 1 }, .close ⟨0, 1⟩] : List (Call Budget Outbox)),
      c.KeepsTuple := by
    simp [Call.KeepsTuple]
  obtain ⟨log, h, he, -, -, -, -, hcount, -⟩ := find?_iff_live keep { address := ⟨10, 0, 0, 1⟩ }
    { limit := 0 } { address := ⟨10, 0, 0, 1⟩ }
  exact ⟨_, rfl, keep, log, h, he, hcount⟩

/-! ## Edited addresses and ports -/

/-- At the end of a run and one call later. -/
theorem run_next (cfg : Config) (arena : α) (network : ν) (past : List (Call α ν)) (c : Call α ν) :
    ∃ log h a h', (start cfg arena network).run past = .ok (log, h) ∧
      (start cfg arena network).run (past ++ [c]) = .ok (⟨h, c, a⟩ :: log, h') ∧
      h.call c = .ok (a, h') ∧ History.Sound log h.table ∧
      History.Sound (⟨h, c, a⟩ :: log) h'.table ∧
      (h.table.Registers (History.createdAs log) →
        (h'.table.Registers (History.createdAs (⟨h, c, a⟩ :: log)) ↔
          History.Rightful log ⟨h, c, a⟩)) := by
  obtain ⟨log, h, hr, hs⟩ := run_sound cfg arena network past
  obtain ⟨a, h', he, hf⟩ := call_effect hs.wellFormed c
  refine ⟨log, h, a, h', hr, ?_, he, hs, hs.step hf, fun hreg => History.registers_step hs hreg hf⟩
  rw [run_snoc, hr, Except.ok_bind]
  unfold next
  rw [he]
  rfl

/-- Edits of addresses and ports leave the registrations right, at every moment of a run, if and
only if no record is closed while it has another four-tuple than the one it was created under. Then
closing a record removes its registration and no other. -/
theorem registered_iff_closed_as_created (cfg : Config) (arena : α) (network : ν)
    (cs : List (Call α ν)) :
    ((∀ past, past <+: cs → ∃ log h, (start cfg arena network).run past = .ok (log, h) ∧
        Registered log h) ∧
      ∀ past k, past ++ [.close k] <+: cs → ∃ log h h',
        (start cfg arena network).run past = .ok (log, h) ∧ h.close k = .ok h' ∧
          Unregistered k h h') ↔
    ∀ past k, past ++ [.close k] <+: cs → ∃ log h,
      (start cfg arena network).run past = .ok (log, h) ∧
        ∀ c, h.get? k = some c → History.createdAs log k = some c.tuple := by
  constructor
  · rintro ⟨hreg, -⟩ past k hpre
    obtain ⟨log, h, a, h', hrun, hrun', -, hs, hs', hstep⟩ :=
      run_next cfg arena network past (.close k)
    obtain ⟨_, _, e, hr⟩ := hreg past ((List.prefix_append _ _).trans hpre)
    obtain ⟨_, _, e', hr'⟩ := hreg _ hpre
    cases hrun.symm.trans e
    cases hrun'.symm.trans e'
    have hright := (hstep ((registered_iff hs).mp hr)).mp ((registered_iff hs').mp hr')
    exact ⟨log, h, hrun, fun c hk => hright k c rfl hk⟩
  · intro hclose
    have hreg (past : List (Call α ν)) (hpre : past <+: cs) : ∃ log h,
        (start cfg arena network).run past = .ok (log, h) ∧ History.Sound log h.table ∧
          h.table.Registers (History.createdAs log) := by
      induction past using List.reverseRecOn with
      | nil => exact ⟨[], _, rfl, History.sound_start cfg, registers_start cfg⟩
      | append_singleton past c ih =>
        obtain ⟨log, h, a, h', hrun, hrun', -, -, hs', hstep⟩ := run_next cfg arena network past c
        obtain ⟨_, _, e, -, hr⟩ := ih ((List.prefix_append _ _).trans hpre)
        cases hrun.symm.trans e
        refine ⟨_, h', hrun', hs', (hstep hr).mpr fun k c' hcall hk => ?_⟩
        cases hcall
        obtain ⟨_, _, e, hright⟩ := hclose past k hpre
        cases hrun.symm.trans e
        exact hright c' hk
    refine ⟨fun past hpre => ?_, fun past k hpre => ?_⟩
    · obtain ⟨log, h, hrun, hs, hr⟩ := hreg past hpre
      exact ⟨log, h, hrun, (registered_iff hs).mpr hr⟩
    · obtain ⟨log, h, hrun, hs, hr⟩ := hreg past ((List.prefix_append _ _).trans hpre)
      obtain ⟨_, _, e, hright⟩ := hclose past k hpre
      cases hrun.symm.trans e
      obtain ⟨h', he, hu⟩ := close_unregistered hs hr hright
      exact ⟨log, h, h', hrun, he, hu⟩

/-- A record is created, its remote port is changed, and it is closed: its key is found still. -/
theorem stale_key_found : ∃ log h,
    (start { address := ⟨10, 0, 0, 1⟩ } ({ limit := 0 } : Budget)
      ({ address := ⟨10, 0, 0, 1⟩ } : Outbox)).run
      [.create ⟨10, 0, 0, 2⟩ 80 5000,
        .edit ⟨0, 1⟩ fun c => { c with tuple := { c.tuple with remotePort := 81 } },
        .close ⟨0, 1⟩] = .ok (log, h) ∧
    h.table.find? ⟨10, 0, 0, 2⟩ ⟨10, 0, 0, 1⟩ 80 5000 = some ⟨0, 1⟩ ∧ h.get? ⟨0, 1⟩ = none :=
  ⟨_, _, rfl, rfl, rfl⟩

end Host

end TcpEngine
