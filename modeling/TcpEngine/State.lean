import TcpEngine.Segment.Header

/-!
# Connection states and their transitions

A connection moves through its states by events: the two calls that open it, and the SYN, ACK and
FIN of received segments. The table `State.next?` has a row for each event that a state heeds:

| state        | event  | during       | replies          | after        |
|--------------|--------|--------------|------------------|--------------|
| CLOSED       | open   | SYN-SENT     | SYN              | SYN-SENT     |
| CLOSED       | listen | LISTEN       |                  | LISTEN       |
| LISTEN       | SYN    | SYN-RECEIVED | SYN+ACK          | SYN-RECEIVED |
| SYN-SENT     | ACK    | ESTABLISHED  |                  | ESTABLISHED  |
| SYN-RECEIVED | ACK    | ESTABLISHED  |                  | ESTABLISHED  |
| ESTABLISHED  | FIN    | CLOSE-WAIT   | ACK, then FIN+ACK| LAST-ACK     |

All other events are ignored.
-/

namespace TcpEngine

/-- The state of a connection. -/
inductive State where
  | closed
  | listen
  | synSent
  | synReceived
  | established
  | closeWait
  | lastAck
deriving DecidableEq, Repr, Inhabited

namespace State

def name : State → String
  | closed => "CLOSED"
  | listen => "LISTEN"
  | synSent => "SYN-SENT"
  | synReceived => "SYN-RECEIVED"
  | established => "ESTABLISHED"
  | closeWait => "CLOSE-WAIT"
  | lastAck => "LAST-ACK"

instance : ToString State := ⟨name⟩

/-- All states, in the order of a connection's life. -/
def all : List State :=
  [closed, listen, synSent, synReceived, established, closeWait, lastAck]

/-- The state with a given name. -/
def ofName? (s : String) : Option State := all.find? fun x => x.name == s

end State

/-- What can move a connection to another state. -/
inductive Event where
  /-- The user opens the connection. -/
  | activeOpen
  /-- The user waits for the other side to open the connection. -/
  | passiveOpen
  /-- A SYN with its sequence number. -/
  | syn (seq : SeqNumber)
  /-- An acknowledgment. -/
  | ack
  /-- A FIN with the sequence number of its segment. -/
  | fin (seq : SeqNumber)
deriving DecidableEq, Repr

namespace Event

def text : Event → String
  | .activeOpen => "open"
  | .passiveOpen => "listen"
  | .syn seq => s!"syn seq={seq}"
  | .ack => "ack"
  | .fin seq => s!"fin seq={seq}"

instance : ToString Event := ⟨text⟩

/-- The events of a segment: that of its SYN, of its ACK and of its FIN, as far as these are set. -/
def ofHeader (h : Header) : List (Option Event) :=
  [if h.flags.syn then some (.syn h.seqNumber) else none,
   if h.flags.ack then some .ack else none,
   if h.flags.fin then some (.fin h.seqNumber) else none]

end Event

/-- A row of the transition table. The connection is in the state `during` while the replies are
sent, and in the state `after` when that is done. If there is a number to acknowledge, the
connection takes it over at the start. -/
structure Transition where
  during : State
  acknowledge : Option SeqNumber
  replies : List Flags
  after : State
deriving DecidableEq, Repr

/-- The transition to a state without a reply. -/
def Transition.to (s : State) : Transition :=
  { during := s, acknowledge := none, replies := [], after := s }

/-- The transition of a state on an event; none if the state ignores the event. -/
def State.next? : State → Event → Option Transition
  | .closed, .activeOpen =>
    some { during := .synSent, acknowledge := none, replies := [.SYN], after := .synSent }
  | .closed, .passiveOpen => some (.to .listen)
  | .listen, .syn seq =>
    some { during := .synReceived, acknowledge := some (seq.add 1), replies := [.SYN ||| .ACK]
           after := .synReceived }
  | .synSent, .ack => some (.to .established)
  | .synReceived, .ack => some (.to .established)
  | .established, .fin seq =>
    some { during := .closeWait, acknowledge := some (seq.add 1), replies := [.ACK, .FIN ||| .ACK]
           after := .lastAck }
  | _, _ => none

end TcpEngine
