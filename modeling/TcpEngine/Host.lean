import TcpEngine.ConnectionTable
import TcpEngine.Link

/-!
# Hosts

A host is a connection table with its link. Its operations are those of a user, who opens
connections and sends on them, and that of the network layer, which passes in the segments it
receives.

A received segment is split into the events of its SYN, ACK and FIN, in this order. An event that
the state of the connection has a transition for carries that out: the record is moved on, the
replies are sent from it, and the record is brought to its last state. If the first reply cannot be
built, the record becomes again what it was. That the network layer refuses a reply holds up
nothing; the first refusal is the answer in the end.
-/

namespace TcpEngine

/-- A connection table and the link its connections work with. -/
structure Host (α ν : Type) where
  table : ConnectionTable
  link : Link α ν
deriving DecidableEq, Repr

namespace Host

variable {α ν : Type}

/-- A host without connections. -/
def start (c : Config) (arena : α) (network : ν) : Host α ν :=
  { table := .new c, link := { arena, network, journal := [.opened c.address c.capacity] } }

/-- The host with one more note in its journal. -/
def note (h : Host α ν) (n : Note) : Host α ν := { h with link := h.link.note n }

/-- The host with more notes in its journal. -/
def notes (h : Host α ν) (ns : List Note) : Host α ν := ns.foldl note h

/-- The record with the key `k`. -/
def get? (h : Host α ν) (k : Key) : Option Connection := h.table.get? k

/-- The host with the record of the key `k`, if there is one, replaced by `c`. -/
def put (h : Host α ν) (k : Key) (c : Connection) : Host α ν :=
  { h with table := h.table.put k c }

/-! ## Records -/

/-- Creates the record of a connection. -/
def create (h : Host α ν) (remoteAddr : Address) (remotePort localPort : UInt16) :
    Checked (Except Error Key × Host α ν) := do
  let (answer, table, n) ← h.table.create remoteAddr remotePort localPort
  return (answer, { h with table }.note n)

/-- Removes the record with the key `k`, if there is one. -/
def close (h : Host α ν) (k : Key) : Checked (Host α ν) := do
  let (table, ns) ← h.table.close k
  return { h with table }.notes ns

/-- Closes all connections of the host, and says how many there were. What is left is the link. -/
def stop (h : Host α ν) : Checked (Nat × Link α ν) := do
  let (count, ns) ← h.table.clear
  return (count, (h.notes ns).link)

/-! ## Transitions -/

/-- The transition of the connection `k` on an event; an ignored event is noted. -/
def transition (h : Host α ν) (k : Key) (event : Event) :
    Except Error (Option Transition) × Host α ν :=
  match h.get? k with
  | none => (.error .noConnection, h)
  | some c => match c.state.next? event with
    | none => (.ok none, h.note (.ignored c.tuple event c.state))
    | some t => (.ok (some t), h)

/-- Starts a transition of the connection `k`, and returns the record as it was before. -/
def beginTransition (h : Host α ν) (k : Key) (event : Event) (t : Transition) :
    Except Error Connection × Host α ν :=
  match h.get? k with
  | none => (.error .noConnection, h)
  | some c => (.ok c, (h.put k (c.step t)).note (.moved c.tuple c.state event t.during))

/-- Ends a transition of the connection `k`. -/
def endTransition (h : Host α ν) (k : Key) (s : State) : Except Error Unit × Host α ν :=
  match h.get? k with
  | none => (.error .noConnection, h)
  | some c =>
    if c.state = s then (.ok (), h)
    else (.ok (), (h.note (.finished c.tuple c.state s)).put k { c with state := s })

variable [Arena α] [Network ν]

/-- Sends a segment on the connection `k`. -/
def send (h : Host α ν) (k : Key) (flags : Flags) (payload : Octets) :
    Checked (Except Error Unit × Host α ν) :=
  match h.get? k with
  | none => .ok (.error .noConnection, h)
  | some c => do
    let (answer, c, link) ← h.link.send c flags payload
    return (answer, { h with link }.put k c)

/-- Sends replies on the connection `k`, and returns the first refusal of the network layer, which
is `refusal` if one came before. Any other failure ends the sending, and if none of the replies
went out before, which `first` tells, it puts the record `snapshot` back. -/
def reply (h : Host α ν) (k : Key) (snapshot : Connection) (first : Bool)
    (refusal : Option Refusal) :
    List Flags → Checked (Except Error (Option Refusal) × Host α ν)
  | [] => .ok (.ok refusal, h)
  | f :: fs => do
    match ← h.send k f [] with
    | (.ok (), h) => h.reply k snapshot false refusal fs
    | (.error (.undelivered e), h) => h.reply k snapshot false (refusal <|> some e) fs
    | (.error e, h) => return (.error e, if first then h.put k snapshot else h)

/-- The answer of an operation whose only trouble was a refusal, if there was one. -/
def answerOf : Option Refusal → Except Error Unit
  | none => .ok ()
  | some e => .error (.undelivered e)

/-- Carries out a transition of the connection `k`. -/
def carryOut (h : Host α ν) (k : Key) (event : Event) (t : Transition) :
    Checked (Except Error Unit × Host α ν) :=
  match h.beginTransition k event t with
  | (.error e, h) => .ok (.error e, h)
  | (.ok snapshot, h) => do
    match ← h.reply k snapshot true none t.replies with
    | (.error e, h) => return (.error e, h)
    | (.ok refusal, h) => match h.endTransition k t.after with
      | (.error e, h) => return (.error e, h)
      | (.ok (), h) => return (answerOf refusal, h)

/-! ## Opening connections -/

/-- Opens the connection `k` actively. -/
def connect (h : Host α ν) (k : Key) : Checked (Except Error Unit × Host α ν) :=
  match h.transition k .activeOpen with
  | (.error e, h) => .ok (.error e, h)
  | (.ok none, h) => .ok (.error .notPermitted, h)
  | (.ok (some t), h) => h.carryOut k .activeOpen t

omit [Arena α] [Network ν] in
/-- Lets the connection `k` wait for the other side. The transition has no replies. -/
def listen (h : Host α ν) (k : Key) : Checked (Except Error Unit × Host α ν) :=
  match h.transition k .passiveOpen with
  | (.error e, h) => .ok (.error e, h)
  | (.ok none, h) => .ok (.error .notPermitted, h)
  | (.ok (some t), h) => do
    Checked.assert (t.replies = []) .assertion
    match h.beginTransition k .passiveOpen t with
    | (.error e, h) => return (.error e, h)
    | (.ok _, h) => return h.endTransition k t.after

/-! ## Receiving segments -/

/-- Feeds events to the connection `k` one after the other. `refusal` is the first refusal of the
network layer so far; any other failure leaves the remaining events aside. -/
def feed (h : Host α ν) (k : Key) (refusal : Option Refusal) :
    List Event → Checked (Except Error Unit × Host α ν)
  | [] => .ok (answerOf refusal, h)
  | event :: events =>
    match h.transition k event with
    | (.error e, h) => .ok (.error e, h)
    | (.ok none, h) => h.feed k refusal events
    | (.ok (some t), h) => do
      match ← h.carryOut k event t with
      | (.ok (), h) => h.feed k refusal events
      | (.error (.undelivered e), h) => h.feed k (refusal <|> some e) events
      | (.error e, h) => return (.error e, h)

/-- Takes in a segment that has come from `src` for `dst`. A segment that belongs to no connection
is no error. -/
def receive (h : Host α ν) (segment : Octets) (src dst : Address) :
    Checked (Except Error Unit × Host α ν) := do
  match ← Header.parse segment (h.table.policy.ends src dst) with
  | .error r => return (.error (.rejected r), h.note (.dropped src dst r))
  | .ok header => match h.table.find? src dst header.srcPort header.dstPort with
    | none => return (.ok (), h.note (.unmatched src dst header))
    | some k =>
      let h := h.note (.received src dst header)
      h.feed k none ((Event.ofHeader header).filterMap id)

end Host

end TcpEngine
