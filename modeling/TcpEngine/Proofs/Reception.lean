import TcpEngine.Network.Outbox
import TcpEngine.Proofs.ArenaDiscipline
import TcpEngine.Proofs.Atomicity
import TcpEngine.Proofs.Journal
import TcpEngine.Proofs.Verification

/-!
# The outcome of receiving

What a host answers to a segment, and when nothing comes of it. A segment is rejected for what is
the matter with it. The answer to any other accounts for what arena and network layer did in the
meantime (`Accounts`): there was no memory if and only if a request failed, and otherwise the first
refusal is told. As every key that is found is that of a live record, there are no other errors.

* `Observer`: a network layer that remembers what it has said. `Link.Saw`: the calls that an arena
  received, and what the network layer said.
* `Host.Accounted`: the answers of operations. Sending, replying, carrying out a transition and
  feeding events have such (`Host.send_accounted`, `Host.reply_accounted`,
  `Host.carryOut_accounted`, `Host.feed_accounted`).
* `Host.Disregards`: the segments that move nothing (`Host.receive_disregarded`).
* `Host.receive_outcome`: the outcome of receiving a segment after any run (`Host.Reception`).
-/

namespace TcpEngine

/-! ## What arena and network layer said -/

/-- A network layer with what it has said to the segments that were handed over, in order: nothing
if it accepted the segment, or why it refused it. -/
structure Observer (ν : Type) where
  layer : ν
  verdicts : List (Option Refusal) := []
deriving DecidableEq, Repr

namespace Observer

variable {ν : Type} [Network ν]

def deliver (n : Observer ν) (dst : Address) (protocol : Protocol) (payload : Octets) :
    Except Refusal Unit × Observer ν :=
  match Network.deliver n.layer dst protocol payload with
  | (.ok (), layer) => (.ok (), { layer, verdicts := n.verdicts ++ [none] })
  | (.error r, layer) => (.error r, { layer, verdicts := n.verdicts ++ [some r] })

end Observer

instance {ν : Type} [Network ν] : Network (Observer ν) where
  address n := Network.address n.layer
  deliver := Observer.deliver

/-- A request that was not granted, or with a buffer of another length than was asked for. -/
def ArenaCall.Fails : ArenaCall → Prop
  | .allocate n given => given ≠ some n
  | .release _ => False

/-- The answer of an operation during which the arena received `calls` and the network layer said
`vs`. If a request failed, there was no memory; otherwise the answer is that to the first refusal,
if there was one. -/
inductive Accounts {β : Type} (f : Option Refusal → Except Error β) (calls : List ArenaCall)
    (vs : List (Option Refusal)) : Except Error β → Prop
  | served : (∀ x ∈ calls, ¬ x.Fails) → Accounts f calls vs (f (vs.findSome? id))
  | denied : (∃ x ∈ calls, x.Fails) → Accounts f calls vs (.error .noMemory)

/-- What was said before the operation, while all requests were granted, counts in its answer. -/
theorem Accounts.behind {β : Type} {f g : Option Refusal → Except Error β}
    {first calls : List ArenaCall} {vs vs' : List (Option Refusal)} {a : Except Error β}
    (hfirst : ∀ x ∈ first, ¬ x.Fails) (hg : ∀ r, g r = f (vs.findSome? id <|> r))
    (h : Accounts g calls vs' a) : Accounts f (first ++ calls) (vs ++ vs') a := by
  cases h with
  | served hcalls =>
    have hfind : g (vs'.findSome? id) = f ((vs ++ vs').findSome? id) := by
      rw [hg, List.findSome?_append]
      cases vs.findSome? id <;> rfl
    rw [hfind]
    exact .served fun x hx => (List.mem_append.mp hx).elim (hfirst x) (hcalls x)
  | denied hcalls =>
    obtain ⟨x, hx, hfails⟩ := hcalls
    exact .denied ⟨x, List.mem_append_right _ hx, hfails⟩

section

variable {calls : List ArenaCall} {vs : List (Option Refusal)} {a : Except Error Unit}

theorem Accounts.noMemory_iff (h : Accounts Host.answerOf calls vs a) :
    a = .error .noMemory ↔ ∃ x ∈ calls, x.Fails := by
  cases h with
  | served hcalls =>
    refine iff_of_false (fun h => ?_) fun ⟨x, hx, hfails⟩ => hcalls x hx hfails
    cases hv : vs.findSome? id <;> rw [hv] at h <;> cases h
  | denied hcalls => exact iff_of_true rfl hcalls

/-- An error tells that there was no memory, or what the first refusal was. -/
theorem Accounts.error_cases (h : Accounts Host.answerOf calls vs a) {e : Error}
    (ha : a = .error e) :
    (e = .noMemory ∧ ∃ x ∈ calls, x.Fails) ∨
      ∃ r, e = .undelivered r ∧ vs.findSome? id = some r := by
  cases h with
  | served _ =>
    cases hv : vs.findSome? id with
    | none => rw [hv] at ha; cases ha
    | some r => rw [hv] at ha; cases ha; exact .inr ⟨r, rfl, rfl⟩
  | denied hcalls => cases ha; exact .inl ⟨rfl, hcalls⟩

end

/-! ## Sending -/

namespace Link

variable {α ν : Type} {l l₁ l' : Link (Ledger α) (Observer ν)} {calls calls' : List ArenaCall}
  {vs vs' : List (Option Refusal)}

/-- From `l` to `l'` the arena received `calls` and the network layer said `vs`. -/
structure Saw (calls : List ArenaCall) (vs : List (Option Refusal))
    (l l' : Link (Ledger α) (Observer ν)) : Prop where
  arena : l'.arena.calls = l.arena.calls ++ calls
  network : l'.network.verdicts = l.network.verdicts ++ vs

theorem Saw.refl (l : Link (Ledger α) (Observer ν)) : Saw [] [] l l :=
  ⟨(List.append_nil _).symm, (List.append_nil _).symm⟩

theorem Saw.trans (h : Saw calls vs l l₁) (h' : Saw calls' vs' l₁ l') :
    Saw (calls ++ calls') (vs ++ vs') l l' :=
  ⟨by rw [h'.arena, h.arena, List.append_assoc], by rw [h'.network, h.network, List.append_assoc]⟩

theorem Saw.of_note {n : Note} (h : Saw calls vs (l.note n) l') : Saw calls vs l l' :=
  ⟨h.arena, h.network⟩

theorem Saw.note (h : Saw calls vs l l') (n : Note) : Saw calls vs l (l'.note n) :=
  ⟨h.arena, h.network⟩

theorem Saw.settle (h : Saw calls vs l l') (c : Connection) (s : State) :
    Saw calls vs l (l'.settle c s) := by
  unfold Link.settle
  split
  · exact h
  · exact h.note _

variable [Arena α] [Network ν] {c c' : Connection} {a : Except Error Unit}

omit [Network ν] in
theorem saw_release (l : Link (Ledger α) (Observer ν)) (b : Octets) :
    Saw [.release b.length] [] l (l.release b) :=
  ⟨rfl, (List.append_nil _).symm⟩

omit [Network ν] in
theorem saw_allocate {n : Nat} {b : Option Octets} {arena : Ledger α}
    (h : Arena.allocate l.arena n = (b, arena)) :
    Saw [.allocate n (b.map List.length)] [] l { l with arena } :=
  ⟨Ledger.calls_allocate h, (List.append_nil _).symm⟩

/-- A segment is handed over and its buffer given back. The answer is the refusal, if there is
one. -/
theorem handOver_saw (l : Link (Ledger α) (Observer ν)) (c : Connection) (q : Header)
    (b : Octets) : ∃ vs c' l', Saw [.release b.length] vs l l' ∧
      l.handOver c q b = (Host.answerOf (vs.findSome? id), c', l') := by
  have hdeliver : Network.deliver l.network c.tuple.remoteAddr .tcp b =
    Observer.deliver l.network c.tuple.remoteAddr .tcp b := rfl
  unfold handOver
  rw [hdeliver]
  unfold Observer.deliver
  split
  rename_i answer network he
  split at he
  · cases he
    refine ⟨[none], _, _, ?_, rfl⟩
    exact ⟨rfl, rfl⟩
  · rename_i r layer _
    cases he
    refine ⟨[some r], _, _, ?_, rfl⟩
    exact ⟨rfl, rfl⟩

omit [Network ν] in
/-- The checksum of a segment is computed, unless the request for its buffer fails. -/
theorem checksum_accounts {header payload : Octets} {src dst : Address} {r : Except Error UInt16}
    {arena : Ledger α} (hfits : header.length + payload.length ≤ Segment.maxLen)
    (he : segmentChecksum l.arena header payload src dst = .ok (r, arena)) :
    ∃ sum calls, Saw calls [] l { l with arena } ∧ Accounts (fun _ => .ok sum) calls [] r := by
  obtain ⟨_, _, hc, he'⟩ := segmentChecksum_computed l.arena header payload src dst
  cases he.symm.trans he'
  cases hc with
  | tooLarge hlong => exact absurd hfits (Nat.not_le.mpr hlong)
  | noBuffer _ hb =>
    exact ⟨0, _, saw_allocate hb, .denied ⟨_, List.mem_cons_self .., nofun⟩⟩
  | wrongBuffer _ hb hne =>
    refine ⟨0, _, (saw_allocate hb).trans (saw_release _ _),
      .denied ⟨_, List.mem_cons_self .., fun hlen => hne (Option.some.inj hlen)⟩⟩
  | done _ hb hlen hfilled =>
    refine ⟨_, _, (saw_allocate hb).trans (saw_release _ _), .served fun x hx => ?_⟩
    simp only [List.cons_append, List.nil_append, List.mem_cons, List.not_mem_nil, or_false] at hx
    obtain rfl | rfl := hx
    · simp [ArenaCall.Fails, hlen]
    · simp [ArenaCall.Fails]

/-- A buffer of the right length is filled and handed over, unless a request for the checksum
fails. -/
theorem finish_accounts {q : Header} {p b : Octets} (hp : p.length ≤ maxPayload)
    (hb : b.length = Segment.headerLen + p.length) (he : l.finish c q p b = .ok (a, c', l')) :
    ∃ calls vs, Saw calls vs l l' ∧ Accounts Host.answerOf calls vs a := by
  obtain ⟨r, arena, -, hsum⟩ := segmentChecksum_computed l.arena (q.octets 0) p
    c.tuple.localAddr c.tuple.remoteAddr
  have hfits : (q.octets 0).length + p.length ≤ Segment.maxLen := by
    rw [Header.length_octets]
    exact fits hp
  obtain ⟨sum, calls, hsaw, ha⟩ := checksum_accounts hfits hsum
  cases ha with
  | served hcalls =>
    obtain ⟨vs, c₁, l₁, hsaw', he'⟩ := handOver_saw { l with arena } c q (q.octets sum ++ p)
    have hdone := finish_done hb hsum
    rw [he'] at hdone
    cases he.symm.trans hdone
    have hrelease : Accounts Host.answerOf [.release (q.octets sum ++ p).length] vs
        (Host.answerOf (vs.findSome? id)) := .served (by simp [ArenaCall.Fails])
    exact ⟨_, _, hsaw.trans hsaw', hrelease.behind hcalls fun _ => rfl⟩
  | denied hcalls =>
    cases he.symm.trans (finish_failed hb hsum)
    obtain ⟨x, hx, hfails⟩ := hcalls
    exact ⟨_, _, hsaw.trans (saw_release _ _).of_note,
      .denied ⟨x, List.mem_append_left _ hx, hfails⟩⟩

/-- A segment is handed over, unless a request fails. -/
theorem send_accounts {f : Flags} {p : Octets} (hp : p.length ≤ maxPayload)
    (he : l.send c f p = .ok (a, c', l')) :
    ∃ calls vs, Saw calls vs l l' ∧ Accounts Host.answerOf calls vs a := by
  have hlen : (c.header f (UInt16.ofNat p.length)).bufferLen = Segment.headerLen + p.length :=
    c.bufferLen_nextHeader f hp
  unfold send at he
  rw [if_neg (Nat.not_lt.mpr hp)] at he
  dsimp only at he
  split at he
  · rename_i hb
    cases he
    exact ⟨_, _, (saw_allocate hb).note _, .denied ⟨_, List.mem_cons_self .., nofun⟩⟩
  · rename_i b arena hb
    split at he
    · rename_i hne
      cases he
      exact ⟨_, _, (saw_allocate hb).trans (saw_release _ _),
        .denied ⟨_, List.mem_cons_self .., fun hgiven => hne (Option.some.inj hgiven)⟩⟩
    · rename_i hgiven
      have hgiven := Classical.not_not.mp hgiven
      obtain ⟨calls, vs, hsaw, ha⟩ := finish_accounts hp (hgiven.trans hlen) he
      refine ⟨_, _, (saw_allocate hb).trans hsaw, ha.behind ?_ fun _ => rfl⟩
      simp [ArenaCall.Fails, hgiven]

end Link

/-! ## Rejections -/

/-- With the addresses of a host, the matter with a wrong checksum is a sum that is not ones. -/
theorem Header.rejected_wrongChecksum_iff {segment : Octets} {policy : ChecksumPolicy}
    {src dst : Address} :
    Rejected segment (policy.ends src dst) .wrongChecksum ↔
      (20 ≤ segment.length ∧ segment.length ≤ 65535) ∧ policy = .verify ∧
        Checksum.ofOctets (Checksum.pseudoOctets src dst .tcp (UInt16.ofNat segment.length) ++
          segment) ≠ .ok 0xffff := by
  refine and_congr_right fun hlen => ?_
  cases policy with
  | verify =>
    exact (Segment.verify_eq_false_iff hlen.2 src dst).trans (and_iff_right rfl).symm
  | ignore => exact iff_of_false nofun nofun

/-! ## Segments that move nothing -/

namespace Host

variable {α ν : Type}

/-- The segment is rejected, or it belongs to no record, or the record to which it belongs has no
transition on any of its events. -/
def Disregards (h : Host α ν) (segment : Octets) (src dst : Address) : Prop :=
  ∀ q k c, Header.parse segment (h.table.policy.ends src dst) = .ok (.ok q) →
    h.get? k = some c → c.tuple = .ofSegment src dst q.srcPort q.dstPort →
    ∀ e ∈ (Event.ofHeader q).filterMap id, c.state.next? e = none

variable [Arena α] [Network ν] {h : Host α ν}

theorem feed_ignored_all {k : Key} {c : Connection} (hk : h.get? k = some c)
    (refusal : Option Refusal) {es : List Event} (hes : ∀ e ∈ es, c.state.next? e = none) :
    ∃ h', h.feed k refusal es = .ok (answerOf refusal, h') ∧ h.Alike h' := by
  induction es generalizing h with
  | nil => exact ⟨h, rfl, .rfl⟩
  | cons e es ih =>
    rw [feed_ignored hk (hes e (List.mem_cons_self ..)), hold_self hk]
    obtain ⟨h', he, hh⟩ := ih (h := h.note (.ignored c.tuple e c.state)) hk
      fun e he => hes e (List.mem_cons_of_mem _ he)
    exact ⟨h', he, (h.alike_note _).trans hh⟩

theorem receive_disregarded {log : History α ν} (hr : History.Regular log h.table)
    {segment : Octets} {src dst : Address} (hd : h.Disregards segment src dst) :
    ∃ a h', h.receive segment src dst = .ok (a, h') ∧ h.Alike h' := by
  obtain ⟨r | q, hq⟩ := Header.parse_ok segment (h.table.policy.ends src dst)
  · exact ⟨_, _, receive_rejected hq, h.alike_note _⟩
  cases hf : h.table.find? src dst q.srcPort q.dstPort with
  | none => exact ⟨_, _, receive_unmatched hq hf, h.alike_note _⟩
  | some k =>
    obtain ⟨c, hk, hc⟩ := (hr.find?_iff _ k).mp hf
    obtain ⟨h', he, hh⟩ := feed_ignored_all (h := h.note (.received src dst q)) hk none
      (hd q k c hq hk hc)
    exact ⟨_, h', (receive_found hq hf).trans he, (h.alike_note _).trans hh⟩

end Host

/-! ## The answers of operations -/

namespace Host

variable {α ν β : Type} {h h' : Host (Ledger α) (Observer ν)} {k : Key} {c : Connection}
  {f : Option Refusal → Except Error β}

/-- An operation on the record under the key `k` has led to `x`, and its answer accounts for what
arena and network layer did in the meantime. -/
def Accounted (h : Host (Ledger α) (Observer ν)) (k : Key) (f : Option Refusal → Except Error β)
    (x : Checked (Except Error β × Host (Ledger α) (Observer ν))) : Prop :=
  ∃ a c l calls vs, x = .ok (a, h.hold k c l) ∧ h.link.Saw calls vs l ∧ Accounts f calls vs a

/-- Nothing was done. -/
theorem Accounted.self (hk : h.get? k = some c) {a : Except Error β} (ha : f none = a) :
    h.Accounted k f (.ok (a, h)) := by
  subst ha
  exact ⟨_, c, h.link, [], [], by rw [hold_self hk]; rfl, .refl _, .served nofun⟩

/-- What was done after all requests so far had been granted. -/
theorem Accounted.behind (hk : h.get? k = some c) {c₁ : Connection}
    {l₁ : Link (Ledger α) (Observer ν)} {calls : List ArenaCall} {vs : List (Option Refusal)}
    (hsaw : h.link.Saw calls vs l₁) (hcalls : ∀ x ∈ calls, ¬ x.Fails)
    {g : Option Refusal → Except Error β} (hg : ∀ r, g r = f (vs.findSome? id <|> r))
    {x : Checked (Except Error β × Host (Ledger α) (Observer ν))}
    (hx : (h.hold k c₁ l₁).Accounted k g x) : h.Accounted k f x := by
  obtain ⟨a, c', l', calls', vs', he, hsaw', ha⟩ := hx
  rw [hold_hold hk] at he
  exact ⟨a, c', l', _, _, he, hsaw.trans hsaw', ha.behind hcalls hg⟩

variable [Arena α] [Network ν]

theorem send_accounted (hk : h.get? k = some c) (f : Flags) :
    h.Accounted k answerOf (h.send k f []) := by
  obtain ⟨a, c', l', -, he⟩ := h.link.send_cases c f []
  obtain ⟨calls, vs, hsaw, ha⟩ := Link.send_accounts (Nat.zero_le _) he
  exact ⟨a, c', l', calls, vs, send_eq hk he, hsaw, ha⟩

theorem reply_accounted (hk : h.get? k = some c) (snapshot : Connection) (first : Bool)
    (refusal : Option Refusal) (fs : List Flags) :
    h.Accounted k (fun r => .ok (refusal <|> r)) (h.reply k snapshot first refusal fs) := by
  induction fs generalizing h c first refusal with
  | nil => exact .self hk (by cases refusal <;> rfl)
  | cons f fs ih =>
    obtain ⟨a, c₁, l₁, calls, vs, he, hsaw, ha⟩ := send_accounted hk f
    cases ha with
    | served hcalls =>
      rw [reply_cons he]
      refine (ih (get?_hold_self hk c₁ l₁) false _).behind hk hsaw hcalls fun r => ?_
      cases refusal <;> rfl
    | denied hcalls =>
      rw [reply_failed he (by simp)]
      cases first with
      | false => exact ⟨_, c₁, l₁, calls, vs, rfl, hsaw, .denied hcalls⟩
      | true =>
        exact ⟨_, snapshot, l₁, calls, vs, by rw [if_pos rfl, put_hold hk], hsaw, .denied hcalls⟩

theorem carryOut_accounted (hk : h.get? k = some c) (e : Event) (t : Transition) :
    h.Accounted k answerOf (h.carryOut k e t) := by
  have hbegun := get?_hold_self hk (c.step t) (h.link.note (.moved c.tuple c.state e t.during))
  obtain ⟨a, c₁, l₁, calls, vs, he, hsaw, ha⟩ := reply_accounted hbegun c true none t.replies
  rw [hold_hold hk] at he
  unfold carryOut
  rw [beginTransition_eq hk]
  dsimp only
  rw [he, Except.ok_bind]
  cases ha with
  | denied hcalls => exact ⟨_, c₁, l₁, calls, vs, rfl, hsaw.of_note, .denied hcalls⟩
  | served hcalls =>
    dsimp only
    rw [endTransition_eq (get?_hold_self hk c₁ l₁), hold_hold hk]
    exact ⟨_, _, _, calls, vs, rfl, hsaw.of_note.settle c₁ t.after, .served hcalls⟩

/-- Events are answered with the first refusal, unless a request fails. -/
theorem feed_accounted (hk : h.get? k = some c) (refusal : Option Refusal) (es : List Event) :
    h.Accounted k (fun r => answerOf (refusal <|> r)) (h.feed k refusal es) := by
  induction es generalizing h c refusal with
  | nil => exact .self hk (by cases refusal <;> rfl)
  | cons e es ih =>
    cases hn : c.state.next? e with
    | none =>
      rw [feed_ignored hk hn]
      exact (ih (get?_hold_self hk c _) refusal).behind hk ((Link.Saw.refl _).note _) nofun
        fun _ => rfl
    | some t =>
      obtain ⟨a, c₁, l₁, calls, vs, he, hsaw, ha⟩ := carryOut_accounted hk e t
      cases ha with
      | served hcalls =>
        rw [feed_carried hk hn he]
        refine (ih (get?_hold_self hk c₁ l₁) _).behind hk hsaw hcalls fun r => ?_
        cases refusal <;> rfl
      | denied hcalls =>
        rw [feed_failed hk hn he (by simp)]
        exact ⟨_, c₁, l₁, calls, vs, rfl, hsaw, .denied hcalls⟩

/-! ## Outcomes -/

/-- A segment is rejected, or the answer to it accounts for what arena and network layer did. -/
theorem receive_accounts {log : History (Ledger α) (Observer ν)}
    (hr : History.Regular log h.table) (segment : Octets) (src dst : Address) :
    ∃ a h' calls vs, h.receive segment src dst = .ok (a, h') ∧ h.link.Saw calls vs h'.link ∧
      ((∃ r, Header.parse segment (h.table.policy.ends src dst) = .ok (.error r) ∧
          a = .error (.rejected r) ∧ calls = []) ∨
        (∃ q, Header.parse segment (h.table.policy.ends src dst) = .ok (.ok q)) ∧
          Accounts answerOf calls vs a) := by
  obtain ⟨r | q, hq⟩ := Header.parse_ok segment (h.table.policy.ends src dst)
  · exact ⟨_, _, [], [], receive_rejected hq, (Link.Saw.refl _).note _, .inl ⟨r, hq, rfl, rfl⟩⟩
  cases hf : h.table.find? src dst q.srcPort q.dstPort with
  | none =>
    exact ⟨_, _, [], [], receive_unmatched hq hf, (Link.Saw.refl _).note _,
      .inr ⟨⟨q, hq⟩, .served nofun⟩⟩
  | some k =>
    obtain ⟨c, hk, -⟩ := (hr.find?_iff _ k).mp hf
    obtain ⟨a, c', l', calls, vs, he, hsaw, ha⟩ := feed_accounted
      (h := h.note (.received src dst q)) hk none ((Event.ofHeader q).filterMap id)
    exact ⟨a, _, calls, vs, (receive_found hq hf).trans he, hsaw.of_note, .inr ⟨⟨q, hq⟩, ha⟩⟩

/-- Nobody but the journal has noticed anything between the two hosts. -/
def Untouched (h h' : Host (Ledger α) (Observer ν)) (calls : List ArenaCall)
    (vs : List (Option Refusal)) : Prop := h.Alike h' ∧ calls = [] ∧ vs = []

/-- The outcome of receiving a segment: the answer `a` and the host `h'`, after the arena received
`calls` and the network layer said `vs`. -/
structure Reception (h : Host (Ledger α) (Observer ν)) (segment : Octets) (src dst : Address)
    (a : Except Error Unit) (h' : Host (Ledger α) (Observer ν)) (calls : List ArenaCall)
    (vs : List (Option Refusal)) : Prop where
  truncated : a = .error (.rejected .truncated) ↔ segment.length < 20
  malformed : a = .error (.rejected .malformed) ↔ 65535 < segment.length
  wrongChecksum : a = .error (.rejected .wrongChecksum) ↔
    (20 ≤ segment.length ∧ segment.length ≤ 65535) ∧ h.table.policy = .verify ∧
      Checksum.ofOctets (Checksum.pseudoOctets src dst .tcp (UInt16.ofNat segment.length) ++
        segment) ≠ .ok 0xffff
  possible : a ≠ .error .noConnection ∧ a ≠ .error .notPermitted ∧ a ≠ .error .tooLarge
  undelivered : ∀ r, a = .error (.undelivered r) → vs.findSome? id = some r
  noMemory : a = .error .noMemory ↔ ∃ x ∈ calls, x.Fails
  rejected : ∀ r, a = .error (.rejected r) → h.Untouched h' calls vs
  unmatched : ∀ q, Header.parse segment (h.table.policy.ends src dst) = .ok (.ok q) →
    (∀ k c, h.get? k = some c → c.tuple ≠ .ofSegment src dst q.srcPort q.dstPort) →
    h.Untouched h' calls vs
  ignored : ∀ q k c, Header.parse segment (h.table.policy.ends src dst) = .ok (.ok q) →
    h.get? k = some c → c.tuple = .ofSegment src dst q.srcPort q.dstPort →
    (∀ e ∈ (Event.ofHeader q).filterMap id, c.state.next? e = none) → h.Untouched h' calls vs

omit [Arena α] [Network ν] in
theorem untouched_of_alike {calls : List ArenaCall} {vs : List (Option Refusal)}
    (hsaw : h.link.Saw calls vs h'.link) (halike : h.Alike h') : h.Untouched h' calls vs := by
  have hcalls := hsaw.arena
  have hvs := hsaw.network
  rw [halike.arena] at hcalls
  rw [halike.network] at hvs
  exact ⟨halike, List.self_eq_append_right.mp hcalls, List.self_eq_append_right.mp hvs⟩

theorem receive_reception {log : History (Ledger α) (Observer ν)}
    (hr : History.Regular log h.table) (segment : Octets) (src dst : Address) :
    ∃ a h' calls vs, h.receive segment src dst = .ok (a, h') ∧
      h.link.Saw calls vs h'.link ∧ h.Reception segment src dst a h' calls vs := by
  obtain ⟨a, h', calls, vs, he, hsaw, ha⟩ := receive_accounts hr segment src dst
  have hinert (hd : h.Disregards segment src dst) : h.Untouched h' calls vs := by
    obtain ⟨_, _, he', halike⟩ := receive_disregarded hr hd
    cases he.symm.trans he'
    exact untouched_of_alike hsaw halike
  have hrejected (r : Rejection) : a = .error (.rejected r) ↔
      Header.parse segment (h.table.policy.ends src dst) = .ok (.error r) := by
    obtain ⟨r', hq, rfl, -⟩ | ⟨⟨q, hq⟩, ha⟩ := ha
    · simp [hq]
    · refine iff_of_false (fun har => ?_) (by simp [hq])
      simpa using ha.error_cases har
  refine ⟨a, h', calls, vs, he, hsaw, ?_⟩
  constructor
  case truncated => exact (hrejected _).trans Header.parse_eq_error_iff
  case malformed => exact (hrejected _).trans Header.parse_eq_error_iff
  case wrongChecksum =>
    exact ((hrejected _).trans Header.parse_eq_error_iff).trans Header.rejected_wrongChecksum_iff
  case possible =>
    obtain ⟨r, -, rfl, -⟩ | ⟨-, ha⟩ := ha
    · simp
    · refine ⟨fun har => ?_, fun har => ?_, fun har => ?_⟩ <;> simpa using ha.error_cases har
  case undelivered =>
    obtain ⟨r, -, rfl, -⟩ | ⟨-, ha⟩ := ha
    · nofun
    · intro r har
      simpa using ha.error_cases har
  case noMemory =>
    obtain ⟨r, -, rfl, rfl⟩ | ⟨-, ha⟩ := ha
    · exact iff_of_false nofun nofun
    · exact ha.noMemory_iff
  case rejected =>
    intro r har
    refine hinert fun q k c hq => ?_
    rw [(hrejected r).mp har] at hq
    cases hq
  case unmatched =>
    intro q hq hnone
    refine hinert fun q' k c hq' hk hc => ?_
    cases hq.symm.trans hq'
    exact absurd hc (hnone k c hk)
  case ignored =>
    intro q k c hq hk hc hes
    refine hinert fun q' k' c' hq' hk' hc' => ?_
    cases hq.symm.trans hq'
    cases hr.unique hk hk' (hc.trans hc'.symm)
    cases hk.symm.trans hk'
    exact hes

/-- After any run that leaves addresses and ports alone, every string of octets that is received has
its outcome, whatever arena and network layer do. It is rejected for its length or its sum, and for
nothing else. No error is possible but that a reply was refused or that there was no memory, and
these are told only if they were so. A segment that is rejected, that belongs to no record, or whose
events the record ignores moves nothing, and the arena is not called. -/
theorem receive_outcome {cs : List (Call (Ledger α) (Observer ν))}
    (keep : ∀ c ∈ cs, c.KeepsTuple) (cfg : Config) (arena : Ledger α) (network : Observer ν) :
    ∃ log h, (start cfg arena network).run cs = .ok (log, h) ∧ h.table.policy = cfg.policy ∧
      ∀ segment src dst, ∃ a h' calls vs, h.receive segment src dst = .ok (a, h') ∧
        h.link.Saw calls vs h'.link ∧ h.Reception segment src dst a h' calls vs := by
  obtain ⟨log, h, he, hr⟩ := run_regular keep cfg arena network
  obtain ⟨_, _, he', -, hset⟩ := run_settings cfg arena network cs
  cases he.symm.trans he'
  exact ⟨log, h, he, congrArg (fun s => s.2.2) hset, receive_reception hr⟩

/-- A record that waits is sent a SYN, and the network layer refuses the reply. -/
theorem receive_outcome_refused : ∃ (cs : List (Call (Ledger Unbounded) (Observer Outbox)))
    (segment : Octets), cs = [.create ⟨10, 0, 0, 2⟩ 80 5000, .listen ⟨0, 1⟩] ∧
    segment = Header.segment ⟨80, 5000, ⟨7⟩, {}, .SYN, 0, 0⟩ [] ⟨10, 0, 0, 2⟩ ⟨10, 0, 0, 1⟩ ∧
    (∀ c ∈ cs, c.KeepsTuple) ∧
    ∃ log h h' calls vs, (start { address := ⟨10, 0, 0, 1⟩ } { arena := {} }
        { layer := { address := ⟨10, 0, 0, 1⟩, script := [some .device] } }).run cs =
          .ok (log, h) ∧
      h.receive segment ⟨10, 0, 0, 2⟩ ⟨10, 0, 0, 1⟩ = .ok (.error (.undelivered .device), h') ∧
      h.link.Saw calls vs h'.link ∧ h.Reception segment ⟨10, 0, 0, 2⟩ ⟨10, 0, 0, 1⟩
        (.error (.undelivered .device)) h' calls vs ∧ vs.findSome? id = some .device := by
  have keep : ∀ c ∈ ([.create ⟨10, 0, 0, 2⟩ 80 5000, .listen ⟨0, 1⟩] :
      List (Call (Ledger Unbounded) (Observer Outbox))), c.KeepsTuple := by
    simp [Call.KeepsTuple]
  obtain ⟨log, h, hr, -, hout⟩ := receive_outcome keep { address := ⟨10, 0, 0, 1⟩ } { arena := {} }
    { layer := { address := ⟨10, 0, 0, 1⟩, script := [some .device] } }
  obtain ⟨a, h', calls, vs, he, hsaw, hreception⟩ := hout
    (Header.segment ⟨80, 5000, ⟨7⟩, {}, .SYN, 0, 0⟩ [] ⟨10, 0, 0, 2⟩ ⟨10, 0, 0, 1⟩)
    ⟨10, 0, 0, 2⟩ ⟨10, 0, 0, 1⟩
  obtain rfl : a = .error (.undelivered .device) := by
    cases hr
    cases he
    rfl
  exact ⟨_, _, rfl, rfl, keep, log, h, h', calls, vs, hr, he, hsaw, hreception,
    hreception.undelivered _ rfl⟩

end Host

end TcpEngine
