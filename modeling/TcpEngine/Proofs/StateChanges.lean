import TcpEngine.Proofs.Isolation
import TcpEngine.Proofs.LifeCycle

/-!
# What the journal tells of a record's states

Each change of a record's state is noted when it is made, with the state before and the state
after. If the first reply of a transition cannot be built, the record is put back into the state
before, and of this there is no note.

* `changes`: the changes that a journal tells of a four-tuple since a record was created for it.
* `Linked`: each change starts where the one before has ended, and the last one ends in the state of
  the record.
* `Told`: the changes were all made, one behind the other, and some of them were taken back. They
  are linked if and only if none was (`Told.linked_iff`).
* `Link.Tells`: what an operation on a record adds to the journal (`Carried.tells`, `Fed.tells`).
* `Host.state_changes_told`: the journal of any run without edits. A change is taken back exactly
  where a call is answered with a lack of memory and does not leave the record in CLOSE-WAIT.
-/

namespace TcpEngine

/-! ## Changes of state -/

namespace Note

/-- The four-tuple whose connection was created or has changed its state. -/
def about? : Note → Option FourTuple
  | .created u _ | .moved u _ _ _ | .finished u _ _ => some u
  | _ => none

/-- The change of state that the note tells of. -/
def change? : Note → Option (State × State)
  | .moved _ old _ new | .finished _ old new => some (old, new)
  | _ => none

end Note

/-- The changes told of `u` up to a note are `cs`; what comes with the note. -/
def tell (u : FourTuple) (cs : List (State × State)) (n : Note) : List (State × State) :=
  if n.about? = some u then
    match n.change? with
    | some x => cs ++ [x]
    | none => []
  else cs

/-- The changes of state that a journal tells of the four-tuple `u`, since a record was created for
it the last time. -/
def changes (u : FourTuple) (journal : List Note) : List (State × State) :=
  journal.foldl (tell u) []

theorem changes_snoc (u : FourTuple) (ns : List Note) (n : Note) :
    changes u (ns ++ [n]) = tell u (changes u ns) n := by
  simp [changes]

/-- Each change starts in the state in which the one before has ended. -/
def Linked : State → List (State × State) → State → Prop
  | s, [], s' => s = s'
  | s, (old, new) :: cs, s' => s = old ∧ Linked new cs s'

theorem linked_snoc {s s' old new : State} {cs : List (State × State)} :
    Linked s (cs ++ [(old, new)]) s' ↔ Linked s cs old ∧ new = s' := by
  induction cs generalizing s with
  | nil => simp [Linked]
  | cons x cs ih =>
    obtain ⟨a, b⟩ := x
    simp [Linked, ih, and_assoc]

/-- A record went from one state to another. All changes were told when they were made; `n` of them
were taken back. -/
inductive Told (s : State) : List (State × State) → State → Nat → Prop
  | nil : Told s [] s 0
  | kept {cs : List (State × State)} {s₁ : State} {n : Nat} (s₂ : State) : Told s cs s₁ n →
    Told s (cs ++ [(s₁, s₂)]) s₂ n
  | undone {cs : List (State × State)} {s₁ s₂ : State} {n : Nat} : Told s cs s₁ n → s₂ ≠ s₁ →
    Told s (cs ++ [(s₁, s₂)]) s₁ (n + 1)

namespace Told

variable {s s₁ s₂ : State} {cs cs' : List (State × State)} {n m : Nat}

theorem append (h : Told s cs s₁ n) (h' : Told s₁ cs' s₂ m) : Told s (cs ++ cs') s₂ (n + m) := by
  induction h' with
  | nil =>
    rw [List.append_nil]
    exact h
  | kept s₂ _ ih =>
    rw [← List.append_assoc]
    exact .kept s₂ ih
  | undone _ hne ih =>
    rw [← List.append_assoc]
    exact .undone ih hne

/-- A change that was taken back leaves a gap, which later changes do not close. -/
theorem linked_iff (h : Told s cs s₁ n) : Linked s cs s₁ ↔ n = 0 := by
  induction h with
  | nil => exact iff_of_true rfl rfl
  | kept s₂ _ ih => rw [linked_snoc, ih, and_iff_left rfl]
  | undone _ hne _ =>
    rw [linked_snoc]
    exact iff_of_false (fun h => hne h.2) (Nat.succ_ne_zero _)

end Told

/-! ## What an operation tells -/

/-- How many changes an operation has taken back that has left a record in the state `s`. -/
def lapses (a : Except Error Unit) (s : State) : Nat :=
  if a = .error .noMemory ∧ s ≠ .closeWait then 1 else 0

theorem lapses_answerOf (r : Option Refusal) (s : State) : lapses (Host.answerOf r) s = 0 := by
  cases r <;> rfl

namespace Link

variable {α ν : Type}

/-- Nothing was told about states. -/
def Silent (l l' : Link α ν) : Prop := ∀ u, changes u l'.journal = changes u l.journal

/-- The record for `u` has gone from one state to another, which was told, and `n` changes were
taken back. Nothing else was told about states. -/
structure Tells (l : Link α ν) (u : FourTuple) (s s' : State) (n : Nat) (l' : Link α ν) :
    Prop where
  own : ∃ cs, changes u l'.journal = changes u l.journal ++ cs ∧ Told s cs s' n
  others : ∀ v, v ≠ u → changes v l'.journal = changes v l.journal

section

variable {l l₁ l' : Link α ν} {u : FourTuple} {s s₁ s' : State} {n m : Nat}

theorem Silent.trans (h : l.Silent l₁) (h' : l₁.Silent l') : l.Silent l' :=
  fun u => (h' u).trans (h u)

theorem silent_note {x : Note} (hx : x.about? = none) : l.Silent (l.note x) := by
  intro u
  rw [note, changes_snoc, tell, hx]
  rfl

theorem Silent.tells (h : l.Silent l') (u : FourTuple) (s : State) : l.Tells u s s 0 l' where
  own := ⟨[], by rw [h u, List.append_nil], .nil⟩
  others v _ := h v

theorem Tells.trans (h : l.Tells u s s₁ n l₁) (h' : l₁.Tells u s₁ s' m l') :
    l.Tells u s s' (n + m) l' where
  own := by
    obtain ⟨cs, hcs, ht⟩ := h.own
    obtain ⟨cs', hcs', ht'⟩ := h'.own
    exact ⟨cs ++ cs', by rw [hcs', hcs, List.append_assoc], ht.append ht'⟩
  others v hv := (h'.others v hv).trans (h.others v hv)

theorem Tells.silent (h : l.Tells u s s' n l₁) (h' : l₁.Silent l') : l.Tells u s s' n l' :=
  h.trans (h'.tells u s')

/-- A note of one change. -/
theorem tells_note {x : Note} (hu : x.about? = some u) (hx : x.change? = some (s, s₁))
    (ht : Told s [(s, s₁)] s' n) : l.Tells u s s' n (l.note x) where
  own := ⟨_, by rw [note, changes_snoc, tell, if_pos hu, hx], ht⟩
  others v hv := by
    have hne : x.about? ≠ some v := fun h => hv (Option.some.inj (h.symm.trans hu))
    rw [note, changes_snoc, tell, if_neg hne]

theorem tells_made {x : Note} (hu : x.about? = some u) (hx : x.change? = some (s, s')) :
    l.Tells u s s' 0 (l.note x) :=
  tells_note hu hx (.kept s' .nil)

/-- With the creation of a record the changes told of its four-tuple begin anew. -/
theorem changes_created (l : Link α ν) (u v : FourTuple) (i : SeqNumber) :
    changes v (l.note (.created u i)).journal = if u = v then [] else changes v l.journal := by
  rw [note, changes_snoc]
  by_cases e : u = v
  · simp [tell, Note.about?, Note.change?, e]
  · simp [tell, Note.about?, e]

theorem tells_settle (l : Link α ν) (c : Connection) (s : State) :
    l.Tells c.tuple c.state s 0 (l.settle c s) := by
  unfold settle
  split
  · rename_i hs
    rw [← hs]
    exact Silent.tells (fun _ => rfl) _ _
  · exact tells_made rfl rfl

end

variable {l l' : Link α ν} {c c' : Connection} {f : Flags} {p : Octets} {a : Except Error Unit}

theorem Unbuilt.silent (h : l.Unbuilt c f p l') : l.Silent l' := by
  cases h with
  | noBuffer arena => exact silent_note (l := { l with arena }) rfl
  | wrongBuffer arena => exact fun _ => rfl
  | noChecksum arena => exact silent_note (l := { l with arena }) rfl

variable [Network ν]

theorem Handed.silent {r : Option Refusal} (h : l.Handed c f p r l') : l.Silent l' := by
  cases h with
  | @accepted arena network _ => exact silent_note (l := { l with arena, network }) rfl
  | @refused arena network _ _ => exact silent_note (l := { l with arena, network }) rfl

theorem Sent.state (h : l.Sent c f p a c' l') : c'.state = c.state := by
  cases h <;> rfl

theorem Sent.silent (h : l.Sent c f p a c' l') : l.Silent l' := by
  cases h with
  | tooLarge _ => exact silent_note rfl
  | unbuilt _ hu => exact hu.silent
  | handed _ hh => exact hh.silent

theorem Replied.silent {fs : List Flags} {r : Option Refusal} (h : l.Replied c fs r c' l') :
    l.Silent l' := by
  induction h with
  | nil _ _ => exact fun _ => rfl
  | cons hh _ ih => exact hh.silent.trans ih

/-- What a transition tells. It is taken back if its first reply is not built; the only transition
that has a second reply leads to CLOSE-WAIT. -/
theorem Carried.tells {e : Event} {t : Transition} (hn : c.state.next? e = some t)
    (h : l.Carried c e t a c' l') :
    l.Tells c.tuple c.state c'.state (lapses a c'.state) l' := by
  have hmoved : l.Tells c.tuple c.state t.during 0
      (l.note (.moved c.tuple c.state e t.during)) := tells_made rfl rfl
  cases h with
  | @completed r c₁ l₁ hr =>
    have hsettled := l₁.tells_settle c₁ t.after
    have hstate : c₁.state = t.during := hr.state
    have htuple : c₁.tuple = c.tuple := Connection.tuple_eq hr.fixed
    rw [hstate, htuple] at hsettled
    rw [lapses_answerOf]
    exact (hmoved.silent hr.silent).trans hsettled
  | undone _ hu =>
    have hne : t.during ≠ c.state := fun heq => by
      have hlt := (State.rank_next? hn).1
      rw [heq] at hlt
      exact Nat.lt_irrefl _ hlt
    have hopen : c.state ≠ .closeWait := fun hc => by
      rw [hc] at hn
      cases e <;> cases hn
    have hback : l.Tells c.tuple c.state c.state 1
        (l.note (.moved c.tuple c.state e t.during)) := tells_note rfl rfl (.undone .nil hne)
    rw [lapses, if_pos ⟨rfl, hopen⟩]
    exact hback.silent hu.silent
  | @halted sent f rest r _ l₁ _ hfs hne hr hu =>
    have hlong : 2 ≤ t.replies.length := by
      have := List.length_pos_iff.mpr hne
      rw [hfs, List.length_append, List.length_cons]
      omega
    have hwait : t.during = .closeWait := by
      cases hc : c.state <;> rw [hc] at hn <;> cases e <;> cases hn
      case established.fin => rfl
      all_goals simp [Transition.to] at hlong
    have hstate : c'.state = t.during := hr.state
    rw [hstate, lapses, if_neg fun h => h.2 hwait]
    exact (hmoved.silent hr.silent).silent hu.silent

theorem Opened.tells {e : Event} (h : l.Opened c e a c' l') :
    l.Tells c.tuple c.state c'.state (lapses a c'.state) l' := by
  cases h with
  | notPermitted _ => exact (silent_note rfl).tells _ _
  | carried hn hc => exact hc.tells hn

theorem Fed.tells {r : Option Refusal} {es : List Event} (h : l.Fed c r es a c' l') :
    l.Tells c.tuple c.state c'.state (lapses a c'.state) l' := by
  induction h with
  | nil l c r =>
    rw [lapses_answerOf]
    exact Silent.tells (fun _ => rfl) _ _
  | ignored _ _ ih =>
    have hrest := ((silent_note rfl).tells _ _).trans ih
    rwa [Nat.zero_add] at hrest
  | carried hn hc _ ih =>
    have hfirst := hc.tells hn
    rw [lapses_answerOf] at hfirst
    rw [Connection.tuple_eq hc.fixed] at ih
    have hrest := hfirst.trans ih
    rwa [Nat.zero_add] at hrest
  | stopped hn hc => exact hc.tells hn

end Link

/-! ## Calls -/

theorem Call.KeepsRecords.keepsTuple {α ν : Type} {c : Call α ν} (h : c.KeepsRecords) :
    c.KeepsTuple := by
  cases c with
  | edit _ _ => exact h.elim
  | _ => trivial

/-- Whether a call may change the state of the record with the key `k`. -/
def Entry.drives {α ν : Type} (e : Entry α ν) (k : Key) : Bool :=
  match e.call with
  | .connect k' | .listen k' => k' == k
  | .receive .. => e.before.subject? e.call == some k
  | _ => false

/-- A call that creates a record drives none. -/
theorem Entry.drives_created {α ν : Type} {e : Entry α ν} {k : Key} {u : FourTuple}
    (h : e.created? = some (k, u)) (k' : Key) : e.drives k' = false := by
  unfold Entry.created? at h
  split at h
  · rename_i hcall _
    unfold Entry.drives
    rw [hcall]
  · cases h

/-- Whether a change of state was taken back in this stage of the life of the record with the key
`k`: for lack of memory, and not at the second reply to a FIN. -/
def Stage.undone {α ν : Type} (k : Key) (x : Stage α ν) : Bool :=
  match x.entry.answer with
  | .done a => x.entry.drives k && lapses a x.record.state == 1
  | _ => false

namespace Stage

variable {α ν : Type} {k : Key} {x : Stage α ν}

theorem undone_of_drives {a : Except Error Unit} (ha : x.entry.answer = .done a)
    (hd : x.entry.drives k = true) : (x.undone k).toNat = lapses a x.record.state := by
  unfold undone
  rw [ha]
  dsimp only
  rw [hd]
  unfold lapses
  split <;> rfl

theorem undone_of_not_drives (hd : x.entry.drives k = false) : x.undone k = false := by
  unfold undone
  split
  · rw [hd]
    rfl
  · rfl

end Stage

namespace Host

variable {α ν : Type}

/-- Every record of `h'` was a record of `h`, and the journal tells how it came from the state that
it had to the one that it has, with `n` changes taken back. -/
def Tells (h : Host α ν) (n : Key → Connection → Nat) (h' : Host α ν) : Prop :=
  ∀ k c', h'.get? k = some c' → ∃ c cs, h.get? k = some c ∧
    changes c'.tuple h'.link.journal = changes c.tuple h.link.journal ++ cs ∧
    Told c.state cs c'.state (n k c')

section

variable {h h' : Host α ν} {k : Key} {c c' : Connection} {l' : Link α ν}
  {n : Key → Connection → Nat}

theorem tells_idle (ht : h'.table = h.table) (hl : h.link.Silent h'.link)
    (hn : ∀ k c, n k c = 0) : h.Tells n h' := by
  intro k c hk
  refine ⟨c, [], (get?_of_table ht k).symm.trans hk, ?_, ?_⟩
  · rw [hl, List.append_nil]
  · rw [hn]
    exact .nil

theorem tells_noted {x : Note} (hx : x.about? = none) (hn : ∀ k c, n k c = 0) :
    h.Tells n (h.note x) :=
  tells_idle rfl (Link.silent_note hx) hn

/-- The record under the key `k` was replaced. All others have other four-tuples. -/
theorem tells_hold {log : History α ν} (hr : History.Regular log h.table) (hk : h.get? k = some c)
    (htuple : c'.tuple = c.tuple) (ht : h.link.Tells c.tuple c.state c'.state (n k c') l')
    (hn : ∀ k₁ c₁, k₁ ≠ k → n k₁ c₁ = 0) : h.Tells n (h.hold k c' l') := by
  intro k₁ c₁ hk₁
  rw [get?_hold hk] at hk₁
  split at hk₁
  · rename_i e
    cases hk₁
    subst e
    obtain ⟨cs, hcs, ht⟩ := ht.own
    exact ⟨c, cs, hk, by rw [htuple]; exact hcs, ht⟩
  · rename_i hne
    have hother : c₁.tuple ≠ c.tuple := fun e => hne (hr.unique hk₁ hk e)
    refine ⟨c₁, [], hk₁, ?_, ?_⟩
    · rw [List.append_nil]
      exact ht.others _ hother
    · rw [hn k₁ c₁ hne]
      exact .nil

end

variable [Arena α] [Network ν] {log : History α ν} {h h' : Host α ν}

/-- How many changes a call takes back, for each record as the call leaves it. -/
def takenBack (e : Entry α ν) (k : Key) (c : Connection) : Nat :=
  (Stage.undone k ⟨e, c⟩).toNat

omit [Arena α] [Network ν] in
theorem takenBack_of_not_drives {e : Entry α ν} {k : Key} (hd : e.drives k = false)
    (c : Connection) : takenBack e k c = 0 := by
  unfold takenBack
  rw [Stage.undone_of_not_drives hd]
  rfl

theorem receive_tells (hr : History.Regular log h.table) {segment : Octets} {src dst : Address}
    {a : Except Error Unit} (he : h.receive segment src dst = .ok (a, h')) :
    h.Tells (takenBack ⟨h, .receive segment src dst, .done a⟩) h' := by
  have hidle {a : Except Error Unit} {x : Note} (hx : x.about? = none)
      (ha : a ≠ .error .noMemory) :
      h.Tells (takenBack ⟨h, .receive segment src dst, .done a⟩) (h.note x) := by
    refine tells_noted hx fun k c => ?_
    simp [takenBack, Stage.undone, lapses, ha]
  obtain ⟨r, he'⟩ | ⟨q, -, he'⟩ | ⟨q, k, -, -, a, ha, he'⟩ |
    ⟨q, k, c, hq, hf, hk, a, c', l', hfed, he'⟩ := h.receive_cases segment src dst
  · cases he.symm.trans he'
    exact hidle rfl (by simp)
  · cases he.symm.trans he'
    exact hidle rfl (by simp)
  · cases he.symm.trans he'
    exact hidle rfl ha
  · cases he.symm.trans he'
    have hs : h.subject? (.receive segment src dst) = some k := (subject?_receive hq).trans hf
    refine tells_hold hr hk (Connection.tuple_eq hfed.fixed) ?_ fun k₁ c₁ hne => ?_
    · have hd : (Entry.mk h (.receive segment src dst) (.done a)).drives k = true := by
        simp [Entry.drives, hs]
      rw [takenBack, Stage.undone_of_drives rfl hd]
      have hrest := (Link.silent_note (l := h.link) (x := .received src dst q) rfl).tells
        c.tuple c.state |>.trans hfed.tells
      rwa [Nat.zero_add] at hrest
    · refine takenBack_of_not_drives ?_ c₁
      simp [Entry.drives, hs, Ne.symm hne]

omit [Arena α] in
/-- Opening a connection is told. -/
theorem opened_tells (hr : History.Regular log h.table) {k : Key} {c c' : Connection} {e : Event}
    {a : Except Error Unit} {l' : Link α ν} (hk : h.get? k = some c)
    (ho : h.link.Opened c e a c' l') {call : Call α ν}
    (hd : ∀ k', (Entry.mk h call (.done a)).drives k' = (k == k')) :
    h.Tells (takenBack ⟨h, call, .done a⟩) (h.hold k c' l') := by
  refine tells_hold hr hk (Connection.tuple_eq ho.fixed) ?_ fun k₁ c₁ hne => ?_
  · rw [takenBack, Stage.undone_of_drives rfl (by rw [hd, beq_self_eq_true])]
    exact ho.tells
  · refine takenBack_of_not_drives ?_ c₁
    rw [hd]
    exact beq_false_of_ne hne.symm

/-- A record is new, and nothing has been told about it; or it was there before, and the journal
tells of the changes that the call has made. -/
theorem call_tells (hr : History.Regular log h.table) {c : Call α ν} (keep : c.KeepsRecords)
    {a : Answer} (he : h.call c = .ok (a, h')) {k : Key} {c' : Connection}
    (hk : h'.get? k = some c') :
    (∃ u, (Entry.mk h c a).created? = some (k, u) ∧ c'.state = .closed ∧
      changes c'.tuple h'.link.journal = []) ∨
    ((∀ u, (Entry.mk h c a).created? ≠ some (k, u)) ∧ ∃ c₀ cs, h.get? k = some c₀ ∧
      changes c'.tuple h'.link.journal = changes c₀.tuple h.link.journal ++ cs ∧
        Told c₀.state cs c'.state (takenBack ⟨h, c, a⟩ k c')) := by
  obtain ⟨_, _, he', hc⟩ := call_cases hr.sound.wellFormed c
  cases he.symm.trans he'
  cases hc with
  | @created _ _ _ k₁ m hf hm =>
    have hget := hm.get? k
    have hk : m.get? k = some c' := hk
    rw [hk] at hget
    split at hget
    · rename_i e
      cases hget
      subst e
      exact .inl ⟨_, rfl, rfl, (Link.changes_created ..).trans (if_pos rfl)⟩
    · rename_i hne
      have hold : h.get? k = some c' := hget.symm
      refine .inr ⟨fun u hu => hne ?_, c', [], hold, ?_, .nil⟩
      · cases hu
        rfl
      · rw [List.append_nil]
        refine (Link.changes_created ..).trans (if_neg fun e => ?_)
        rw [e, (hr.find?_iff c'.tuple k).mpr ⟨c', hold, rfl⟩] at hf
        cases hf
  | @closed k₁ _ m _ hm =>
    have hget := hm.get? k
    have hk : m.get? k = some c' := hk
    rw [hk] at hget
    split at hget
    · cases hget
    · refine .inr ⟨nofun, c', [], hget.symm, ?_, .nil⟩
      rw [List.append_nil]
      exact Link.silent_note rfl c'.tuple
  | edited _ _ => exact keep.elim
  | editedStale _ _ => exact keep.elim
  | connected hk₀ ho => exact .inr ⟨nofun, opened_tells hr hk₀ ho (fun _ => rfl) k c' hk⟩
  | listened hk₀ ho => exact .inr ⟨nofun, opened_tells hr hk₀ ho (fun _ => rfl) k c' hk⟩
  | sent hk₀ hs =>
    refine .inr ⟨nofun, ?_⟩
    refine tells_hold hr hk₀ (Connection.tuple_eq hs.fixed) ?_ (fun _ _ _ => rfl) k c' hk
    rw [hs.state]
    exact hs.silent.tells _ _
  | dropped =>
    obtain ⟨⟨a₁, h₁⟩, hx, he⟩ := Except.bind_eq_ok.mp he
    cases he
    exact .inr ⟨nofun, receive_tells hr hx k c' hk⟩
  | received _ _ _ =>
    obtain ⟨⟨a₁, h₁⟩, hx, he⟩ := Except.bind_eq_ok.mp he
    cases he
    exact .inr ⟨nofun, receive_tells hr hx k c' hk⟩
  | present _ => exact .inr ⟨nofun, tells_noted rfl (fun _ _ => rfl) k c' hk⟩
  | noSlot _ _ => exact .inr ⟨nofun, tells_noted rfl (fun _ _ => rfl) k c' hk⟩
  | connectedStale _ | listenedStale _ =>
    refine .inr ⟨nofun, tells_idle rfl (fun _ => rfl) (fun k c => ?_) k c' hk⟩
    simp [takenBack, Stage.undone, lapses]
  | _ => exact .inr ⟨nofun, tells_idle rfl (fun _ => rfl) (fun _ _ => rfl) k c' hk⟩

/-! ## Runs -/

/-- As long as the user edits no record, the journal tells all changes of state of every live record
since its creation in CLOSED, whatever the arena and the network layer say. They are linked, and
end in the state of the record, if and only if no change was taken back in its life: no call for it
was answered with a lack of memory, except one that has left it in CLOSE-WAIT. -/
theorem state_changes_told {cs : List (Call α ν)} (keep : ∀ c ∈ cs, c.KeepsRecords)
    (cfg : Config) (arena : α) (network : ν) :
    ∃ log h, (start cfg arena network).run cs = .ok (log, h) ∧ ∀ k c, h.get? k = some c →
      Told .closed (changes c.tuple h.link.journal) c.state
        ((History.life log h k).countP (Stage.undone k)) ∧
      (Linked .closed (changes c.tuple h.link.journal) c.state ↔
        ∀ x ∈ History.life log h k, x.undone k = false) := by
  have hrun : ∃ log h, (start cfg arena network).run cs = .ok (log, h) ∧
      History.Regular log h.table ∧ ∀ k c, h.get? k = some c →
        Told .closed (changes c.tuple h.link.journal) c.state
          ((History.life log h k).countP (Stage.undone k)) := by
    refine run_induction ⟨regular_start cfg, nofun⟩ fun log h c hc ⟨hr, ht⟩ => ?_
    obtain ⟨a, h', he, hf⟩ := call_effect hr.sound.wellFormed c
    refine ⟨a, h', he, hr.step (keep c hc).keepsTuple hf, fun k c' hk => ?_⟩
    obtain ⟨u, hu, hclosed, hnone⟩ | ⟨hne, c₀, new, hk₀, hnew, htold⟩ :=
      call_tells hr (keep c hc) he hk
    · rw [hnone, hclosed, History.life_created hk hu, List.countP_singleton,
        Stage.undone_of_not_drives (Entry.drives_created hu k)]
      exact .nil
    · rw [hnew, History.life_kept hk hne, List.countP_cons]
      have hsum := (ht k c₀ hk₀).append htold
      unfold takenBack at hsum
      cases hb : Stage.undone k ⟨⟨h, c, a⟩, c'⟩ <;> rw [hb] at hsum <;> exact hsum
  obtain ⟨log, h, he, -, ht⟩ := hrun
  refine ⟨log, h, he, fun k c hk => ⟨ht k c hk, ?_⟩⟩
  rw [(ht k c hk).linked_iff, List.countP_eq_zero]
  simp

/-- A record waits and is called. Then a segment acknowledges its SYN and closes the connection, and
there is no buffer for the second reply to that. -/
theorem state_changes_told_halted : ∃ cs : List (Call Scripted Outbox),
    cs = [.create ⟨10, 0, 0, 2⟩ 80 5000, .listen ⟨0, 1⟩,
      .receive (Header.segment ⟨80, 5000, ⟨7⟩, {}, .SYN, 0, 0⟩ [] ⟨10, 0, 0, 2⟩ ⟨10, 0, 0, 1⟩)
        ⟨10, 0, 0, 2⟩ ⟨10, 0, 0, 1⟩,
      .receive (Header.segment ⟨80, 5000, ⟨8⟩, {}, .FIN ||| .ACK, 0, 0⟩ [] ⟨10, 0, 0, 2⟩
        ⟨10, 0, 0, 1⟩) ⟨10, 0, 0, 2⟩ ⟨10, 0, 0, 1⟩] ∧ (∀ c ∈ cs, c.KeepsRecords) ∧
    ∃ log h, (start { address := ⟨10, 0, 0, 1⟩ }
        { script := [some 0, some 0, some 0, some 0, none] }
        { address := ⟨10, 0, 0, 1⟩ }).run cs = .ok (log, h) ∧
      ∃ c, h.get? ⟨0, 1⟩ = some c ∧ c.state = .closeWait ∧
        changes c.tuple h.link.journal = [(.closed, .listen), (.listen, .synReceived),
          (.synReceived, .established), (.established, .closeWait)] ∧
        Linked .closed (changes c.tuple h.link.journal) c.state := by
  have keep : ∀ c ∈ ([.create ⟨10, 0, 0, 2⟩ 80 5000, .listen ⟨0, 1⟩,
      .receive (Header.segment ⟨80, 5000, ⟨7⟩, {}, .SYN, 0, 0⟩ [] ⟨10, 0, 0, 2⟩ ⟨10, 0, 0, 1⟩)
        ⟨10, 0, 0, 2⟩ ⟨10, 0, 0, 1⟩,
      .receive (Header.segment ⟨80, 5000, ⟨8⟩, {}, .FIN ||| .ACK, 0, 0⟩ [] ⟨10, 0, 0, 2⟩
        ⟨10, 0, 0, 1⟩) ⟨10, 0, 0, 2⟩ ⟨10, 0, 0, 1⟩] : List (Call Scripted Outbox)),
      c.KeepsRecords := by
    simp [Call.KeepsRecords]
  obtain ⟨log, h, he, ht⟩ := state_changes_told keep { address := ⟨10, 0, 0, 1⟩ }
    { script := [some 0, some 0, some 0, some 0, none] } { address := ⟨10, 0, 0, 1⟩ }
  have hlife : (History.life log h ⟨0, 1⟩).all (fun x => !x.undone ⟨0, 1⟩) = true := by
    cases he
    rfl
  have hrecord : ∃ c, h.get? ⟨0, 1⟩ = some c ∧ c.state = .closeWait ∧
      changes c.tuple h.link.journal = [(.closed, .listen), (.listen, .synReceived),
        (.synReceived, .established), (.established, .closeWait)] := by
    cases he
    exact ⟨_, rfl, rfl, rfl⟩
  obtain ⟨c, hk, hs, hcs⟩ := hrecord
  refine ⟨_, rfl, keep, log, h, he, c, hk, hs, hcs, (ht _ c hk).2.mpr fun x hx => ?_⟩
  simpa using List.all_eq_true.mp hlife x hx

/-- A record is opened without memory for its SYN. It is in CLOSED again, and the journal ends with
its change to SYN-SENT. -/
theorem change_taken_back_untold : ∃ log h c,
    (start { address := ⟨10, 0, 0, 1⟩ } ({ script := [none] } : Scripted)
      ({ address := ⟨10, 0, 0, 1⟩ } : Outbox)).run
      [.create ⟨10, 0, 0, 2⟩ 80 5000, .connect ⟨0, 1⟩] = .ok (log, h) ∧
    h.get? ⟨0, 1⟩ = some c ∧ c.state = .closed ∧
    changes c.tuple h.link.journal = [(.closed, .synSent)] ∧
    ¬ Linked .closed (changes c.tuple h.link.journal) c.state := by
  refine ⟨_, _, _, rfl, rfl, rfl, rfl, ?_⟩
  rintro ⟨-, h⟩
  cases h

end Host

end TcpEngine
