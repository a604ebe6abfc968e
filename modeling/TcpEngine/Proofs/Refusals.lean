import TcpEngine.Network.Outbox
import TcpEngine.Proofs.Recorder
import TcpEngine.Proofs.Registry

/-!
# Refusals of the network layer

Two hosts are asked for the same. The network layer of the first accepts every segment, that of the
second refuses some. The hosts do not come apart: their tables and arenas stay equal, and they hand
over the same segments. The second answers a call with the first refusal that it has met during the
call, unless the call fails for another reason, and then both fail alike.

* `Verdicts`: which segments a layer refuses. An outbox that `Obeys` them keeps the others.
* `Host.Twin`: two hosts that have not come apart. What one does, the other does
  (`Host.Twin.send`, `Host.Twin.carryOut`, `Host.Twin.feed`, `Host.Twin.call`).
* `Host.refusals_leave_no_trace`: two runs and one more call.
-/

namespace TcpEngine

/-! ## Verdicts -/

/-- What a network layer says to the segments that it is handed, by their number; `none` accepts
the segment. -/
abbrev Verdicts := Nat → Option Refusal

namespace Verdicts

/-- Every segment is accepted. -/
def willing : Verdicts := fun _ => none

/-- The datagrams that are accepted. -/
def accepted (v : Verdicts) (ds : List Datagram) : List Datagram :=
  (ds.zipIdx.filter fun d => (v d.2).isNone).map Prod.fst

/-- The first refusal among the segments from the number `m` on that lie before the number `n`. -/
def refusal (v : Verdicts) (m n : Nat) : Option Refusal := (List.range' m (n - m)).findSome? v

theorem accepted_snoc (v : Verdicts) (ds : List Datagram) (d : Datagram) :
    v.accepted (ds ++ [d]) = v.accepted ds ++ if (v ds.length).isNone then [d] else [] := by
  unfold accepted
  rw [List.zipIdx_append, List.filter_append, List.map_append]
  cases hv : v ds.length <;> simp [hv]

theorem accepted_willing (ds : List Datagram) : willing.accepted ds = ds := by
  have hall : ds.zipIdx.filter (fun d => (willing d.2).isNone) = ds.zipIdx :=
    List.filter_eq_self.mpr fun _ _ => rfl
  rw [accepted, hall, List.zipIdx_map_fst]

@[simp] theorem refusal_self (v : Verdicts) (n : Nat) : v.refusal n n = none := by
  simp [refusal]

@[simp] theorem refusal_succ (v : Verdicts) (n : Nat) : v.refusal n (n + 1) = v n := by
  simp [refusal]

theorem refusal_trans (v : Verdicts) {m n k : Nat} (h : m ≤ n) (h' : n ≤ k) :
    (v.refusal m n <|> v.refusal n k) = v.refusal m k := by
  have hsplit : List.range' m (k - m) = List.range' m (n - m) ++ List.range' n (k - n) := by
    rw [show k - m = (n - m) + (k - n) by omega, ← List.range'_append,
      show m + 1 * (n - m) = n by omega]
  unfold refusal
  rw [hsplit, List.findSome?_append]
  cases (List.range' m (n - m)).findSome? v <;> rfl

end Verdicts

namespace Outbox

/-- What the outbox says to the segments from now on. -/
def verdicts (n : Outbox) : Verdicts := fun i => n.script[i]?.getD n.failure

theorem refusal_eq (n : Outbox) : n.refusal = n.verdicts 0 := by
  unfold refusal verdicts
  cases n.script <;> rfl

/-- The outbox after the next segment. -/
def after (n : Outbox) (d : Datagram) : Outbox :=
  { n with script := n.script.tail, sent := n.sent ++ if n.refusal.isNone then [d] else [] }

theorem verdicts_after (n : Outbox) (d : Datagram) (i : Nat) :
    (n.after d).verdicts i = n.verdicts (i + 1) := by
  unfold verdicts after
  cases n.script <;> rfl

theorem deliver_eq (n : Outbox) (dst : Address) (protocol : Protocol) (b : Octets) :
    n.deliver dst protocol b = (n.refusal.elim (.ok ()) .error,
      n.after { src := n.address, dst, protocol, payload := b }) := by
  unfold deliver after
  cases n.refusal <;> simp

end Outbox

namespace Recorder

/-- The outbox has followed the verdicts so far, and will follow them. -/
structure Obeys (n : Recorder Outbox) (v : Verdicts) : Prop where
  verdicts : ∀ i, n.layer.verdicts i = v (n.handed.length + i)
  sent : n.layer.sent = v.accepted n.handed

/-- The next segment that such an outbox is handed. -/
theorem Obeys.deliver {n : Recorder Outbox} {v : Verdicts} (h : n.Obeys v) (dst : Address)
    (protocol : Protocol) (b : Octets) :
    ∃ n', Network.deliver n dst protocol b = ((v n.handed.length).elim (.ok ()) .error, n') ∧
      n'.Obeys v ∧ n'.layer.address = n.layer.address ∧
      n'.handed = n.handed ++ [{ src := n.layer.address, dst, protocol, payload := b }] := by
  have hnext : n.layer.refusal = v n.handed.length := by rw [Outbox.refusal_eq, h.verdicts]; rfl
  let d : Datagram := { src := n.layer.address, dst, protocol, payload := b }
  refine ⟨⟨n.layer.after d, n.handed ++ [d]⟩, ?_, ⟨fun i => ?_, ?_⟩, rfl, rfl⟩
  · have hlayer : Network.deliver n.layer dst protocol b = _ := n.layer.deliver_eq dst protocol b
    show Recorder.deliver n dst protocol b = _
    unfold Recorder.deliver
    rw [hlayer, hnext]
    rfl
  · rw [Outbox.verdicts_after, h.verdicts, List.length_append, Nat.add_assoc, Nat.add_comm i 1]
    rfl
  · show n.layer.sent ++ _ = _
    rw [Verdicts.accepted_snoc, h.sent, hnext]

end Recorder

/-- The answers of the two hosts, when the second has met the refusal `r`. An answer that is good
for the first is `f none`, and `f r` for the second. All others are the same. -/
inductive SameAnswer {β : Type} (f : Option Refusal → Except Error β) (r : Option Refusal) :
    Except Error β → Except Error β → Prop
  | went : SameAnswer f r (f none) (f r)
  | failed {e : Error} : (∀ r', e ≠ .undelivered r') → SameAnswer f r (.error e) (.error e)

/-- The answer of a host that has met a refusal besides. -/
def Answer.refused (r : Option Refusal) : Answer → Answer
  | .done (.ok ()) => .done (Host.answerOf r)
  | a => a

theorem SameAnswer.done {r : Option Refusal} {a a' : Except Error Unit}
    (h : SameAnswer Host.answerOf r a a') : Answer.done a' = (Answer.done a).refused r := by
  cases h with
  | went => rfl
  | failed _ => rfl

/-! ## Links -/

/-- A checksum that is not there was not refused. -/
theorem segmentChecksum_error {α : Type} [Arena α] {arena arena' : α} {header payload : Octets}
    {src dst : Address} {e : Error}
    (h : segmentChecksum arena header payload src dst = .ok (.error e, arena')) :
    ∀ r, e ≠ .undelivered r := by
  obtain ⟨_, _, hc, h'⟩ := segmentChecksum_computed arena header payload src dst
  cases h.symm.trans h'
  cases hc <;> simp

namespace Link

variable {α : Type}

/-- The number of segments that were handed over. -/
def count {ν : Type} (l : Link α (Recorder ν)) : Nat := l.network.handed.length

@[simp] theorem count_settle {ν : Type} (l : Link α (Recorder ν)) (c : Connection) (s : State) :
    (l.settle c s).count = l.count := by
  rw [count, network_settle, count]

/-- The two links differ in their refusals only. The first outbox is willing, the second obeys the
verdicts `v`. -/
structure Twin (l : Link α (Recorder Outbox)) (v : Verdicts) (l' : Link α (Recorder Outbox)) :
    Prop where
  arena : l'.arena = l.arena
  handed : l'.network.handed = l.network.handed
  address : l'.network.layer.address = l.network.layer.address
  willing : l.network.Obeys .willing
  obeys : l'.network.Obeys v

/-- An operation that began when `n` segments had been handed over has ended with the answers `a`
and `a'`, and with links that do not differ in more than before. -/
structure Outcome {β : Type} (f : Option Refusal → Except Error β) (v : Verdicts) (n : Nat)
    (a : Except Error β) (l : Link α (Recorder Outbox)) (a' : Except Error β)
    (l' : Link α (Recorder Outbox)) : Prop where
  twin : l.Twin v l'
  le : n ≤ l.count
  answer : SameAnswer f (v.refusal n l.count) a a'

namespace Twin

variable {l l' l₁ : Link α (Recorder Outbox)} {v : Verdicts} {c c₁ : Connection}
  {a : Except Error Unit}

theorem note (h : l.Twin v l') (n n' : Note) : (l.note n).Twin v (l'.note n') :=
  ⟨h.arena, h.handed, h.address, h.willing, h.obeys⟩

theorem lend (h : l.Twin v l') (arena : α) :
    ({ l with arena } : Link α _).Twin v { l' with arena } :=
  ⟨rfl, h.handed, h.address, h.willing, h.obeys⟩

theorem settle (h : l.Twin v l') (c : Connection) (s : State) :
    (l.settle c s).Twin v (l'.settle c s) := by
  unfold Link.settle
  split
  · exact h
  · exact h.note _ _

/-- An operation without a segment has failed. -/
theorem failed {β : Type} (h : l.Twin v l') (f : Option Refusal → Except Error β) {e : Error}
    (he : ∀ r, e ≠ .undelivered r) : Outcome f v l.count (.error e) l (.error e) l' :=
  ⟨h, Nat.le_refl _, .failed he⟩

variable [Arena α]

theorem release (h : l.Twin v l') (b : Octets) : (l.release b).Twin v (l'.release b) :=
  ⟨congrArg (Arena.release · b) h.arena, h.handed, h.address, h.willing, h.obeys⟩

/-- Both hand a segment over. The first is told yes, and the second what the verdict is. -/
theorem handOver (h : l.Twin v l') (c : Connection) (q : Header) (b : Octets) :
    ∃ a c₁ l₁ a' l₁', l.handOver c q b = (a, c₁, l₁) ∧ l'.handOver c q b = (a', c₁, l₁') ∧
      Outcome Host.answerOf v l.count a l₁ a' l₁' := by
  obtain ⟨n, hn, hw, hd, hs⟩ := h.willing.deliver c.tuple.remoteAddr .tcp b
  obtain ⟨n', hn', ho, hd', hs'⟩ := h.obeys.deliver c.tuple.remoteAddr .tcp b
  have htwin : ({ l with network := n } : Link α _).Twin v { l' with network := n' } :=
    ⟨h.arena, by rw [hs, hs', h.handed, h.address], hd'.trans (h.address.trans hd.symm), hw, ho⟩
  have hcount : n.handed.length = l.count + 1 := by rw [hs, List.length_append]; rfl
  have hle : l.count ≤ n.handed.length := by omega
  have hanswer : SameAnswer Host.answerOf (v.refusal l.count n.handed.length) (.ok ())
      (Host.answerOf (v l.network.handed.length)) := by
    rw [hcount, Verdicts.refusal_succ]
    exact .went
  unfold Link.handOver
  rw [hn, hn', h.handed]
  -- The notes of the second link depend on the verdict.
  cases hv : v l.network.handed.length with
  | none =>
    rw [hv] at hanswer
    exact ⟨_, _, _, _, _, rfl, rfl, (htwin.release b).note _ _, hle, hanswer⟩
  | some e =>
    rw [hv] at hanswer
    exact ⟨_, _, _, _, _, rfl, rfl, (htwin.release b).note _ _, hle, hanswer⟩

theorem finish (h : l.Twin v l') {q : Header} {p b : Octets}
    (he : l.finish c q p b = .ok (a, c₁, l₁)) :
    ∃ a' l₁', l'.finish c q p b = .ok (a', c₁, l₁') ∧
      Outcome Host.answerOf v l.count a l₁ a' l₁' := by
  unfold Link.finish at he ⊢
  obtain ⟨b, hb, he⟩ := Except.bind_eq_ok.mp he
  obtain ⟨⟨front, rest⟩, hsplit, he⟩ := Except.bind_eq_ok.mp he
  obtain ⟨⟨sum, arena⟩, hsum, he⟩ := Except.bind_eq_ok.mp he
  rw [hb, Except.ok_bind, hsplit, Except.ok_bind]
  dsimp only
  rw [h.arena, hsum, Except.ok_bind]
  cases sum with
  | error e =>
    cases he
    have hown := segmentChecksum_error hsum
    exact ⟨_, _, rfl, (((h.lend arena).note _ _).release b).failed _ hown⟩
  | ok sum =>
    obtain ⟨b, hb, he⟩ := Except.bind_eq_ok.mp he
    obtain ⟨a₁, c₂, l₂, a', l₁', hl, hl', ho⟩ := (h.lend arena).handOver c q b
    dsimp only
    rw [hb, Except.ok_bind, hl']
    rw [Except.pure_eq, hl] at he
    cases he
    exact ⟨_, _, rfl, ho⟩

theorem send (h : l.Twin v l') {f : Flags} {p : Octets} (he : l.send c f p = .ok (a, c₁, l₁)) :
    ∃ a' l₁', l'.send c f p = .ok (a', c₁, l₁') ∧
      Outcome Host.answerOf v l.count a l₁ a' l₁' := by
  unfold Link.send at he ⊢
  dsimp only at he ⊢
  split at he
  · rename_i hp
    cases he
    rw [if_pos hp]
    exact ⟨_, _, rfl, (h.note _ _).failed _ (by simp)⟩
  · rename_i hp
    rw [if_neg hp, h.arena]
    split at he
    · rename_i arena _
      cases he
      exact ⟨_, _, rfl, ((h.lend arena).note _ _).failed _ (by simp)⟩
    · rename_i b arena _
      split at he
      · rename_i hlen
        cases he
        rw [if_pos hlen]
        exact ⟨_, _, rfl, ((h.lend arena).release b).failed _ (by simp)⟩
      · rename_i hlen
        rw [if_neg hlen]
        exact (h.lend arena).finish he

end Twin

end Link

/-! ## Hosts -/

namespace Host

variable {α : Type}

/-- The two hosts differ in their refusals and journals only. -/
structure Twin (h : Host α (Recorder Outbox)) (v : Verdicts) (h' : Host α (Recorder Outbox)) :
    Prop where
  table : h'.table = h.table
  link : h.link.Twin v h'.link

/-- An operation that began when `n` segments had been handed over has ended, and the hosts do not
differ in more than before. -/
structure Outcome {β : Type} (f : Option Refusal → Except Error β) (v : Verdicts) (n : Nat)
    (x x' : Except Error β × Host α (Recorder Outbox)) : Prop where
  table : x'.2.table = x.2.table
  link : Link.Outcome f v n x.1 x.2.link x'.1 x'.2.link

section

variable {v : Verdicts} {n : Nat} {x x' : Except Error Unit × Host α (Recorder Outbox)}

theorem Outcome.twin (h : Outcome answerOf v n x x') : x.2.Twin v x'.2 := ⟨h.table, h.link.twin⟩

/-- The operations of two hosts as calls. -/
theorem Outcome.done {y y' : Checked (Except Error Unit × Host α (Recorder Outbox))} {a : Answer}
    {g : Host α (Recorder Outbox)}
    (ho : ∀ {x}, y = .ok x → ∃ x', y' = .ok x' ∧ Outcome answerOf v n x x')
    (he : (y >>= fun (b, h) => pure (.done b, h)) = .ok (a, g)) :
    ∃ g', (y' >>= fun (b, h) => pure (.done b, h)) =
      .ok (a.refused (v.refusal n g.link.count), g') ∧ g.Twin v g' := by
  obtain ⟨x, hx, he⟩ := Except.bind_eq_ok.mp he
  obtain ⟨x', hx', ho⟩ := ho hx
  cases he
  refine ⟨x'.2, ?_, ho.twin⟩
  rw [hx', Except.ok_bind, ← ho.link.answer.done]
  rfl

end

namespace Twin

variable {h h' : Host α (Recorder Outbox)} {v : Verdicts} {k : Key} {c : Connection}
  {n : Nat} {x : Except Error Unit × Host α (Recorder Outbox)}

theorem get? (h₀ : h.Twin v h') (hk : h.get? k = some c) : h'.get? k = some c :=
  (get?_of_table h₀.table k).trans hk

theorem stale (h₀ : h.Twin v h') (hk : h.get? k = none) : h'.get? k = none :=
  (get?_of_table h₀.table k).trans hk

theorem hold (h₀ : h.Twin v h') (k : Key) (c : Connection) {l l' : Link α (Recorder Outbox)}
    (hl : l.Twin v l') : (h.hold k c l).Twin v (h'.hold k c l') :=
  ⟨congrArg (fun t => t.put k c) h₀.table, hl⟩

theorem note (h₀ : h.Twin v h') (m m' : Note) : (h.note m).Twin v (h'.note m') :=
  ⟨h₀.table, h₀.link.note m m'⟩

theorem put (h₀ : h.Twin v h') (k : Key) (c : Connection) : (h.put k c).Twin v (h'.put k c) :=
  ⟨congrArg (fun t => t.put k c) h₀.table, h₀.link⟩

theorem failed {β : Type} (h₀ : h.Twin v h') (hn : n ≤ h.link.count)
    (f : Option Refusal → Except Error β) {e : Error} (he : ∀ r, e ≠ .undelivered r) :
    Outcome f v n (.error e, h) (.error e, h') :=
  ⟨h₀.table, h₀.link, hn, .failed he⟩

theorem went {β : Type} (h₀ : h.Twin v h') (hn : n ≤ h.link.count)
    (f : Option Refusal → Except Error β) :
    Outcome f v n (f none, h) (f (v.refusal n h.link.count), h') :=
  ⟨h₀.table, h₀.link, hn, .went⟩

theorem settled {β : Type} (h₀ : h.Twin v h') (hn : n ≤ h.link.count)
    (f : Option Refusal → Except Error β) (k : Key) (c c₁ : Connection) (s : State) :
    Outcome f v n (f none, h.hold k c (h.link.settle c₁ s))
      (f (v.refusal n h.link.count), h'.hold k c (h'.link.settle c₁ s)) := by
  have hheld := h₀.hold k c (h₀.link.settle c₁ s)
  have hcount : (h.hold k c (h.link.settle c₁ s)).link.count = h.link.count :=
    Link.count_settle ..
  rw [← hcount] at hn ⊢
  exact hheld.went hn f

/-- An operation without a segment has gone well. -/
theorem quiet (h₀ : h.Twin v h') : Outcome answerOf v h.link.count (.ok (), h) (.ok (), h') := by
  have hwent := h₀.went (Nat.le_refl _) answerOf
  rwa [Verdicts.refusal_self] at hwent

variable [Arena α]

theorem send (h₀ : h.Twin v h') {f : Flags} {p : Octets} (he : h.send k f p = .ok x) :
    ∃ x', h'.send k f p = .ok x' ∧ Outcome answerOf v h.link.count x x' := by
  cases hk : h.get? k with
  | none =>
    rw [send_stale hk] at he
    cases he
    exact ⟨_, send_stale (h₀.stale hk) f p, h₀.failed (Nat.le_refl _) _ (by simp)⟩
  | some c =>
    have hk' := h₀.get? hk
    unfold Host.send at he ⊢
    rw [hk] at he
    rw [hk']
    obtain ⟨⟨a, c₁, l₁⟩, hs, he⟩ := Except.bind_eq_ok.mp he
    obtain ⟨a', l₁', hs', ho⟩ := h₀.link.send hs
    cases he
    dsimp only
    rw [hs']
    exact ⟨_, rfl, congrArg (fun t => t.put k c₁) h₀.table, ho⟩

/-- The second host goes through its replies with the first refusal since `n` segments had been
handed over. -/
theorem reply (h₀ : h.Twin v h') (hn : n ≤ h.link.count) {s : Connection} {first : Bool}
    {fs : List Flags} {x : Except Error (Option Refusal) × Host α (Recorder Outbox)}
    (he : h.reply k s first none fs = .ok x) :
    ∃ x', h'.reply k s first (v.refusal n h.link.count) fs = .ok x' ∧
      Outcome .ok v n x x' := by
  induction fs generalizing h h' first with
  | nil =>
    cases he
    exact ⟨_, rfl, h₀.went hn .ok⟩
  | cons f fs ih =>
    obtain ⟨⟨a, h₁⟩, hs, -⟩ := Except.bind_eq_ok.mp (show (h.send k f [] >>= _) = _ from he)
    obtain ⟨⟨a', h₁'⟩, hs', ht, hl, hle, ha⟩ := h₀.send hs
    have h₁₀ : h₁.Twin v h₁' := ⟨ht, hl⟩
    cases ha with
    | went =>
      -- Only the second host has a refusal to remember.
      have hs₀ : h.send k f [] = .ok (answerOf none, h₁) := hs
      rw [reply_cons hs₀] at he
      rw [reply_cons hs', Verdicts.refusal_trans v hn hle]
      exact ih h₁₀ (Nat.le_trans hn hle) he
    | failed hown =>
      rw [reply_failed hs hown] at he
      cases he
      refine ⟨_, reply_failed hs' hown .., ?_⟩
      cases first with
      | true => exact (h₁₀.put k s).failed (Nat.le_trans hn hle) _ hown
      | false => exact h₁₀.failed (Nat.le_trans hn hle) _ hown

theorem carryOut (h₀ : h.Twin v h') {e : Event} {t : Transition}
    (he : h.carryOut k e t = .ok x) :
    ∃ x', h'.carryOut k e t = .ok x' ∧ Outcome answerOf v h.link.count x x' := by
  unfold Host.carryOut at he ⊢
  cases hk : h.get? k with
  | none =>
    rw [beginTransition_stale hk] at he
    rw [beginTransition_stale (h₀.stale hk)]
    cases he
    exact ⟨_, rfl, h₀.failed (Nat.le_refl _) _ (by simp)⟩
  | some c =>
    have hbegun := h₀.hold k (c.step t) (h₀.link.note (.moved c.tuple c.state e t.during)
      (.moved c.tuple c.state e t.during))
    rw [beginTransition_eq hk] at he
    rw [beginTransition_eq (h₀.get? hk)]
    obtain ⟨⟨a, h₁⟩, hr, he⟩ := Except.bind_eq_ok.mp he
    obtain ⟨⟨a', h₁'⟩, hr', ht, hl, hle, ha⟩ := hbegun.reply (Nat.le_refl _) hr
    have h₁₀ : h₁.Twin v h₁' := ⟨ht, hl⟩
    rw [Verdicts.refusal_self] at hr'
    dsimp only
    rw [hr', Except.ok_bind]
    cases ha with
    | failed hown =>
      cases he
      exact ⟨_, rfl, h₁₀.failed hle _ hown⟩
    | went =>
      dsimp only at he ⊢
      cases hk₁ : h₁.get? k with
      | none =>
        rw [endTransition_stale hk₁] at he
        rw [endTransition_stale (h₁₀.stale hk₁)]
        cases he
        exact ⟨_, rfl, h₁₀.failed hle _ (by simp)⟩
      | some c₁ =>
        rw [endTransition_eq hk₁] at he
        rw [endTransition_eq (h₁₀.get? hk₁)]
        cases he
        exact ⟨_, rfl, h₁₀.settled hle answerOf k { c₁ with state := t.after } c₁ t.after⟩

theorem connect (h₀ : h.Twin v h') (he : h.connect k = .ok x) :
    ∃ x', h'.connect k = .ok x' ∧ Outcome answerOf v h.link.count x x' := by
  cases hk : h.get? k with
  | none =>
    rw [connect_stale hk] at he
    cases he
    exact ⟨_, connect_stale (h₀.stale hk), h₀.failed (Nat.le_refl _) _ (by simp)⟩
  | some c =>
    unfold Host.connect at he ⊢
    rw [transition_eq hk] at he
    rw [transition_eq (h₀.get? hk)]
    cases hn : c.state.next? .activeOpen with
    | none =>
      rw [hn] at he
      cases he
      have hnoted := h₀.hold k c (h₀.link.note (.ignored c.tuple .activeOpen c.state)
        (.ignored c.tuple .activeOpen c.state))
      exact ⟨_, rfl, hnoted.failed (Nat.le_refl _) _ (by simp)⟩
    | some t =>
      rw [hn] at he
      exact h₀.carryOut he

omit [Arena α] in
theorem listen (h₀ : h.Twin v h') (he : h.listen k = .ok x) :
    ∃ x', h'.listen k = .ok x' ∧ Outcome answerOf v h.link.count x x' := by
  cases hk : h.get? k with
  | none =>
    rw [listen_stale hk] at he
    cases he
    exact ⟨_, listen_stale (h₀.stale hk), h₀.failed (Nat.le_refl _) _ (by simp)⟩
  | some c =>
    cases hn : c.state.next? .passiveOpen with
    | none =>
      unfold Host.listen at he ⊢
      rw [transition_eq hk, hn] at he
      rw [transition_eq (h₀.get? hk), hn]
      cases he
      have hnoted := h₀.hold k c (h₀.link.note (.ignored c.tuple .passiveOpen c.state)
        (.ignored c.tuple .passiveOpen c.state))
      exact ⟨_, rfl, hnoted.failed (Nat.le_refl _) _ (by simp)⟩
    | some t =>
      rw [listen_eq hk hn] at he
      cases he
      have hmoved := h₀.note (.moved c.tuple c.state .passiveOpen t.during)
        (.moved c.tuple c.state .passiveOpen t.during)
      have hsettled := hmoved.settled (Nat.le_refl _) answerOf k { c.step t with state := t.after }
        (c.step t) t.after
      rw [Verdicts.refusal_self] at hsettled
      exact ⟨_, listen_eq (h₀.get? hk) hn, hsettled⟩

theorem feed (h₀ : h.Twin v h') (hn : n ≤ h.link.count) {es : List Event}
    (he : h.feed k none es = .ok x) :
    ∃ x', h'.feed k (v.refusal n h.link.count) es = .ok x' ∧ Outcome answerOf v n x x' := by
  induction es generalizing h h' with
  | nil =>
    cases he
    exact ⟨_, rfl, h₀.went hn answerOf⟩
  | cons e es ih =>
    cases hk : h.get? k with
    | none =>
      unfold Host.feed at he ⊢
      rw [transition_stale hk] at he
      rw [transition_stale (h₀.stale hk)]
      cases he
      exact ⟨_, rfl, h₀.failed hn _ (by simp)⟩
    | some c =>
      unfold Host.feed at he ⊢
      rw [transition_eq hk] at he
      rw [transition_eq (h₀.get? hk)]
      cases hs : c.state.next? e with
      | none =>
        rw [hs] at he
        have hnoted := h₀.hold k c (h₀.link.note (.ignored c.tuple e c.state)
          (.ignored c.tuple e c.state))
        obtain ⟨x', hx', ho⟩ := ih hnoted hn he
        exact ⟨x', hx', ho⟩
      | some t =>
        rw [hs] at he
        obtain ⟨⟨a, h₁⟩, hc, he⟩ := Except.bind_eq_ok.mp he
        obtain ⟨⟨a', h₁'⟩, hc', ht, hl, hle, ha⟩ := h₀.carryOut hc
        have h₁₀ : h₁.Twin v h₁' := ⟨ht, hl⟩
        have hle' := Nat.le_trans hn hle
        dsimp only [Option.isSome_some]
        rw [if_pos rfl, hc', Except.ok_bind]
        cases ha with
        | went =>
          obtain ⟨x', hx', ho⟩ := ih h₁₀ hle' he
          refine ⟨x', ?_, ho⟩
          rw [← hx', ← Verdicts.refusal_trans v hn hle]
          cases v.refusal h.link.count h₁.link.count with
          | none => cases v.refusal n h.link.count <;> rfl
          | some r => rfl
        | @failed e hown =>
          cases e with
          | undelivered r => exact absurd rfl (hown r)
          | _ =>
            cases he
            exact ⟨_, rfl, h₁₀.failed hle' _ hown⟩

theorem receive (h₀ : h.Twin v h') {segment : Octets} {src dst : Address}
    (he : h.receive segment src dst = .ok x) :
    ∃ x', h'.receive segment src dst = .ok x' ∧ Outcome answerOf v h.link.count x x' := by
  unfold Host.receive at he ⊢
  rw [h₀.table]
  obtain ⟨p, hp, he⟩ := Except.bind_eq_ok.mp he
  rw [hp, Except.ok_bind]
  cases p with
  | error r =>
    cases he
    exact ⟨_, rfl, (h₀.note _ _).failed (Nat.le_refl _) _ (by simp)⟩
  | ok q =>
    dsimp only at he ⊢
    cases hf : h.table.find? src dst q.srcPort q.dstPort with
    | none =>
      rw [hf] at he
      cases he
      exact ⟨_, rfl, (h₀.note _ _).quiet⟩
    | some k =>
      rw [hf] at he
      have hnoted := h₀.note (.received src dst q) (.received src dst q)
      obtain ⟨x', hx', ho⟩ := hnoted.feed (Nat.le_refl _) he
      rw [Verdicts.refusal_self] at hx'
      exact ⟨x', hx', ho⟩

omit [Arena α] in
theorem notes (h₀ : h.Twin v h') (ns : List Note) : (h.notes ns).Twin v (h'.notes ns) := by
  induction ns generalizing h h' with
  | nil => exact h₀
  | cons m ns ih => exact ih (h₀.note m m)

/-- What one host is asked for, the other can be asked for. -/
theorem call (h₀ : h.Twin v h') {c : Call α (Recorder Outbox)} (hc : c.KeepsLink) {a : Answer}
    {g : Host α (Recorder Outbox)} (he : h.call c = .ok (a, g)) :
    ∃ g', h'.call c = .ok (a.refused (v.refusal h.link.count g.link.count), g') ∧ g.Twin v g' := by
  unfold Host.call at he ⊢
  cases c with
  | create remoteAddr remotePort localPort =>
    unfold Host.create at he ⊢
    obtain ⟨⟨a₁, h₁⟩, hx, he⟩ := Except.bind_eq_ok.mp he
    obtain ⟨⟨a₂, t, m⟩, ht, hx⟩ := Except.bind_eq_ok.mp hx
    cases hx
    cases he
    dsimp only
    rw [h₀.table, ht]
    exact ⟨_, rfl, rfl, h₀.link.note m m⟩
  | close k =>
    unfold Host.close at he ⊢
    obtain ⟨h₁, hx, he⟩ := Except.bind_eq_ok.mp he
    obtain ⟨⟨t, ns⟩, ht, hx⟩ := Except.bind_eq_ok.mp hx
    cases hx
    cases he
    dsimp only
    rw [h₀.table, ht]
    have hclosed : ({ h with table := t } : Host α _).Twin v { h' with table := t } :=
      ⟨rfl, h₀.link⟩
    exact ⟨_, rfl, hclosed.notes ns⟩
  | find src dst srcPort dstPort =>
    cases he
    dsimp only
    rw [h₀.table]
    exact ⟨_, rfl, h₀⟩
  | get k =>
    cases he
    dsimp only [Host.get?]
    rw [h₀.table]
    exact ⟨_, rfl, h₀⟩
  | edit k f =>
    cases he
    exact ⟨_, rfl, congrArg (fun t => (t.modify k f).getD t) h₀.table, h₀.link⟩
  | connect k =>
    exact Outcome.done h₀.connect he
  | listen k =>
    exact Outcome.done h₀.listen he
  | send k f p =>
    exact Outcome.done h₀.send he
  | receive segment src dst =>
    exact Outcome.done h₀.receive he
  | attach _ _ => exact hc.elim

end Twin

/-! ## Runs -/

variable [Arena α]

omit [Arena α] in
theorem twin_start (cfg : Config) (arena : α) {n : Outbox} (hn : n.sent = []) :
    (start cfg arena { layer := { address := n.address } }).Twin n.verdicts
      (start cfg arena { layer := n }) where
  table := rfl
  link :=
    { arena := rfl, handed := rfl, address := rfl
      willing := ⟨fun _ => rfl, rfl⟩
      obeys := ⟨fun i => congrArg n.verdicts (Nat.zero_add i).symm, hn⟩ }

theorem run_twin {cs : List (Call α (Recorder Outbox))} (hcs : ∀ c ∈ cs, c.KeepsLink) (cfg : Config)
    (arena : α) {n : Outbox} (hn : n.sent = []) :
    ∃ log h log' h',
      (start cfg arena { layer := { address := n.address } }).run cs = .ok (log, h) ∧
      (start cfg arena { layer := n }).run cs = .ok (log', h') ∧ History.Sound log h.table ∧
      h.Twin n.verdicts h' := by
  induction cs using List.reverseRecOn with
  | nil => exact ⟨_, _, _, _, rfl, rfl, History.sound_start cfg, twin_start cfg arena hn⟩
  | append_singleton cs c ih =>
    obtain ⟨log, h, log', h', hr, hr', hs, ht⟩ := ih fun c hc => hcs c (List.mem_append_left _ hc)
    have hc := hcs c (List.mem_append_right _ (List.mem_singleton_self c))
    obtain ⟨a, g, he, hf⟩ := call_effect hs.wellFormed c
    obtain ⟨g', he', ht'⟩ := ht.call hc he
    rw [run_snoc, run_snoc, hr, hr', Except.ok_bind, Except.ok_bind]
    unfold next
    dsimp only
    rw [he, he']
    exact ⟨_, _, _, _, rfl, rfl, hs.step hf, ht'⟩

/-- Two hosts are asked for the same. One works with an outbox that accepts every segment, and the
other with one that refuses some. Then, after any call at the end of any run, they have the same
table and the same arena, and have handed over the same segments. The second outbox has kept those
that it has accepted, where the first has kept all. If the call has gone well on the first host, the
second answers with the first refusal during the call, if there was one; otherwise with the same. -/
theorem refusals_leave_no_trace {cs : List (Call α (Recorder Outbox))}
    (hcs : ∀ c ∈ cs, c.KeepsLink) {c : Call α (Recorder Outbox)} (hc : c.KeepsLink) (cfg : Config)
    (arena : α) {n : Outbox} (hn : n.sent = []) :
    ∃ log h a g log' h' g',
      (start cfg arena { layer := { address := n.address } }).run cs = .ok (log, h) ∧
      h.call c = .ok (a, g) ∧ (start cfg arena { layer := n }).run cs = .ok (log', h') ∧
      h'.call c = .ok (a.refused (n.verdicts.refusal h.link.count g.link.count), g') ∧
      g'.table = g.table ∧ g'.link.arena = g.link.arena ∧
      g'.link.network.handed = g.link.network.handed ∧
      g.link.network.layer.sent = g.link.network.handed ∧
      g'.link.network.layer.sent = n.verdicts.accepted g.link.network.layer.sent ∧
      ∃ m l l', g.stop = .ok (m, l) ∧ g'.stop = .ok (m, l') := by
  obtain ⟨log, h, log', h', hr, hr', hs, ht⟩ := run_twin hcs cfg arena hn
  obtain ⟨a, g, he, hf⟩ := call_effect hs.wellFormed c
  obtain ⟨g', he', htable, hl⟩ := ht.call hc he
  have hsent : g.link.network.layer.sent = g.link.network.handed := by
    rw [hl.willing.sent, Verdicts.accepted_willing]
  have hkept : g'.link.network.layer.sent = n.verdicts.accepted g.link.network.layer.sent := by
    rw [hl.obeys.sent, hl.handed, hsent]
  have hw := (hs.step hf).wellFormed
  obtain ⟨l, hstop⟩ := stop_eq hw
  obtain ⟨l', hstop'⟩ := stop_eq (htable ▸ hw)
  rw [htable] at hstop'
  exact ⟨log, h, a, g, log', h', g', hr, he, hr', he', htable, hl.arena, hl.handed, hsent, hkept,
    _, l, l', hstop, hstop'⟩

/-- Both replies to a FIN are refused. -/
theorem refusals_leave_no_trace_fin : ∃ (cs : List (Call Unbounded (Recorder Outbox)))
    (c : Call Unbounded (Recorder Outbox)) (n : Outbox),
    cs = [.create ⟨10, 0, 0, 2⟩ 80 5000, .edit ⟨0, 1⟩ fun c => { c with state := .established }] ∧
    c = .receive (Header.segment ⟨80, 5000, {}, {}, .FIN, 0, 0⟩ [] ⟨10, 0, 0, 2⟩ ⟨10, 0, 0, 1⟩)
      ⟨10, 0, 0, 2⟩ ⟨10, 0, 0, 1⟩ ∧
    n = { address := ⟨10, 0, 0, 1⟩, script := [some .exhausted, some .device] } ∧
    (∀ c ∈ cs, c.KeepsLink) ∧ c.KeepsLink ∧ n.sent = [] ∧ ∃ log h g log' h' g',
      (start { address := ⟨10, 0, 0, 1⟩ } {} { layer := { address := n.address } }).run cs =
        .ok (log, h) ∧
      h.call c = .ok (.done (.ok ()), g) ∧ g.link.network.layer.sent.length = 2 ∧
      (start { address := ⟨10, 0, 0, 1⟩ } {} { layer := n }).run cs = .ok (log', h') ∧
      h'.call c = .ok (.done (.error (.undelivered .exhausted)), g') ∧
      g'.link.network.layer.sent = [] ∧ g'.table = g.table := by
  have hcs : ∀ c ∈ ([.create ⟨10, 0, 0, 2⟩ 80 5000,
      .edit ⟨0, 1⟩ fun c => { c with state := .established }] :
      List (Call Unbounded (Recorder Outbox))), c.KeepsLink := by
    simp [Call.KeepsLink]
  obtain ⟨log, h, a, g, log', h', g', hr, he, hr', he', ht, -, -, -, hkept, -⟩ :=
    refusals_leave_no_trace hcs (c := .receive (Header.segment ⟨80, 5000, {}, {}, .FIN, 0, 0⟩ []
      ⟨10, 0, 0, 2⟩ ⟨10, 0, 0, 1⟩) ⟨10, 0, 0, 2⟩ ⟨10, 0, 0, 1⟩) trivial
      { address := ⟨10, 0, 0, 1⟩ } {}
      (n := { address := ⟨10, 0, 0, 1⟩, script := [some .exhausted, some .device] }) rfl
  refine ⟨_, _, _, rfl, rfl, rfl, hcs, trivial, rfl, log, h, g, log', h', g', hr, ?_⟩
  cases hr
  cases he
  exact ⟨rfl, rfl, hr', he', hkept, ht⟩

end Host

end TcpEngine
