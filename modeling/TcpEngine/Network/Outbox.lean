import TcpEngine.Network

/-!
# Outboxes

An outbox is a network layer without a device. It keeps the datagrams it accepts until they are
collected, and refuses segments on request: as its script says while there is one, and then all of
them or none.
-/

namespace TcpEngine

/-- A network layer at `address` that keeps the datagrams in `sent`. Each segment takes the next
entry of `script`, where `none` accepts it; behind the end of the script `failure` decides. -/
structure Outbox where
  address : Address
  /-- The accepted datagrams, in order. -/
  sent : List Datagram := []
  script : List (Option Refusal) := []
  failure : Option Refusal := none
deriving DecidableEq, Repr

namespace Outbox

/-- The outbox that behind its script refuses all segments for the given reason, or none. -/
def refuseWith (n : Outbox) (failure : Option Refusal) : Outbox := { n with failure }

/-- The outbox with a new script. -/
def follow (n : Outbox) (script : List (Option Refusal)) : Outbox := { n with script }

/-- The datagrams kept, and the outbox without them. -/
def collect (n : Outbox) : List Datagram × Outbox := (n.sent, { n with sent := [] })

/-- Why the next segment is refused, if it is. -/
def refusal (n : Outbox) : Option Refusal := n.script.headD n.failure

def deliver (n : Outbox) (dst : Address) (protocol : Protocol) (payload : Octets) :
    Except Refusal Unit × Outbox :=
  let rest := { n with script := n.script.tail }
  match n.refusal with
  | some e => (.error e, rest)
  | none => (.ok (), { rest with sent := n.sent ++ [{ src := n.address, dst, protocol, payload }] })

end Outbox

instance : Network Outbox where
  address := Outbox.address
  deliver := Outbox.deliver

end TcpEngine
