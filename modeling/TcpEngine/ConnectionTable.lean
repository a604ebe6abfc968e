import TcpEngine.Index
import TcpEngine.Journal

/-!
# Connection tables

A connection table keeps the records of all connections at one address. A record is reached by the
key that creating it gave, and by the four-tuple under which it was created. Each new connection
starts its sequence numbers a fixed step behind those of the one before.

The operations return the new table together with their notes for the journal.

As long as there is room, memory for another slot is taken for granted, here and so in all runs of a
host. Without it `create` would answer as it does for want of room; that case is in the calls to a
slot map by itself (`SlotMap.Call.insert`).

* `create`: a new record in CLOSED, unless its four-tuple is taken or there is no room.
* `find?`: the key that a received segment's addresses and ports lead to.
* `close`: removes a record, and the registration of the four-tuple that it has at that time.
* `clear`: removes every record.
-/

namespace TcpEngine

/-- The settings of a host. -/
structure Config where
  /-- The local address of all connections. -/
  address : Address
  /-- The number of connections that there is room for. -/
  capacity : UInt64 := 64
  /-- The initial sequence number of the first connection. -/
  initialSeq : SeqNumber := {}
  policy : ChecksumPolicy := .verify
deriving DecidableEq, Repr

/-- The records of the connections at an address. -/
structure ConnectionTable where
  index : Index
  records : SlotMap Connection
  address : Address
  policy : ChecksumPolicy
  /-- The initial sequence number of the next connection. -/
  nextSeq : SeqNumber
deriving DecidableEq, Repr

namespace ConnectionTable

/-- The distance between the initial sequence numbers of two connections in a row. -/
def seqStep : Nat := 64000

/-- The table without connections. -/
def new (c : Config) : ConnectionTable :=
  { index := {}, records := .empty c.capacity, address := c.address, policy := c.policy
    nextSeq := c.initialSeq }

/-- The number of connections. -/
def len (t : ConnectionTable) : Nat := t.records.len

def isEmpty (t : ConnectionTable) : Bool := t.records.isEmpty

/-- All connections with their keys, in the order of their slots. -/
def entries (t : ConnectionTable) : List (Key × Connection) := t.records.entries

/-- The record with the key `k`. -/
def get? (t : ConnectionTable) (k : Key) : Option Connection := t.records.get? k

/-- The table with the record of the key `k` changed by `f`. -/
def modify (t : ConnectionTable) (k : Key) (f : Connection → Connection) :
    Option ConnectionTable :=
  (t.records.modify k f).map fun records => { t with records }

/-- The table with the record of the key `k`, if there is one, replaced by `c`. -/
def put (t : ConnectionTable) (k : Key) (c : Connection) : ConnectionTable :=
  (t.modify k fun _ => c).getD t

/-- The key registered for segments with the given addresses and ports. -/
def find? (t : ConnectionTable) (src dst : Address) (srcPort dstPort : UInt16) : Option Key :=
  t.index.find? (.ofSegment src dst srcPort dstPort)

/-- Creates the record of a connection from a local port to a port of another address. -/
def create (t : ConnectionTable) (remoteAddr : Address) (remotePort localPort : UInt16) :
    Checked (Except Error Key × ConnectionTable × Note) :=
  let tuple : FourTuple := { localAddr := t.address, remoteAddr, localPort, remotePort }
  match t.index.find? tuple with
  | some _ => .ok (.error .notPermitted, t, .present tuple)
  | none => do
    match ← t.records.insert (.new tuple t.nextSeq) with
    | none => return (.error .noMemory, t, .noSlot tuple)
    | some (key, records) =>
      let t' := { t with
        records
        index := t.index.insert tuple key
        nextSeq := t.nextSeq.add seqStep }
      return (.ok key, t', .created tuple t.nextSeq)

/-- Removes the record with the key `k`, if there is one. -/
def close (t : ConnectionTable) (k : Key) : Checked (ConnectionTable × List Note) := do
  match ← t.records.remove k with
  | none => return (t, [])
  | some (c, records) =>
    return ({ t with records, index := t.index.erase c.tuple }, [.closed c.tuple c.state])

/-- Removes the records with the given keys, one after the other. -/
def closeAll (t : ConnectionTable) : List Key → Checked (ConnectionTable × List Note)
  | [] => .ok (t, [])
  | k :: ks => do
    let (t, first) ← t.close k
    let (t, rest) ← t.closeAll ks
    return (t, first ++ rest)

/-- Closes all connections and says how many there were. -/
def clear (t : ConnectionTable) : Checked (Nat × List Note) := do
  let keys := t.records.keys
  let (t, ns) ← t.closeAll keys
  return (keys.length, ns ++ [.cleared t.address keys.length])

end ConnectionTable

end TcpEngine
