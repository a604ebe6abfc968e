import TcpEngine.Arena
import TcpEngine.Host
import TcpEngine.Network.Outbox

/-!
# A loopback run

Two hosts run against each other without a device in between. The client opens a connection, sends
one message and closes its side. The server waits for the connection and answers the close. Every
segment is printed as it is passed on, and after each exchange the state of both sides. What the
client says to the answer is neither passed on nor printed.

* `run`: the whole run, as the lines that it prints and an exit code. A step that fails ends the
  run with the lines printed so far.
* `program`: a run with the arguments of a command line. How a command line is read is left open.
-/

namespace TcpEngine

namespace Loopback

/-- What a run is told: the addresses and ports of both sides, and the message. -/
structure Arguments where
  client : Address
  clientPort : UInt16
  server : Address
  serverPort : UInt16
  message : String
deriving DecidableEq, Repr

/-- The octets of the message. -/
def Arguments.octets (a : Arguments) : Octets := a.message.toUTF8.data.toList

/-- A line that a run prints. -/
inductive Line where
  /-- A segment on its way. -/
  | segment (src dst : Address) (header : Header)
  /-- The states of the client and the server after a step of the run. -/
  | states (step : String) (client server : State × FourTuple)
  /-- The number of connections closed in the end. -/
  | stopped (count : Nat)
deriving DecidableEq, Repr

namespace Line

def text : Line → String
  | segment src dst header => s!"{src} -> {dst}: {header}"
  | states step (cs, ct) (ss, st) => s!"{step}: client {cs} ({ct}), server {ss} ({st})"
  | stopped count => s!"tore down {count} connections"

instance : ToString Line := ⟨text⟩

end Line

/-- A host of the run. -/
abbrev Side := Host Unbounded Outbox

/-- What the steps of a run work on: both hosts, the key of the connection on each, and the lines
printed so far. -/
structure Rig where
  client : Side
  server : Side
  active : Key
  passive : Key
  lines : List Line

/-- The outcome of a step: a rig to go on with, or the lines printed before a failure. -/
abbrev Progress := Except (List Line) Rig

/-- The result of an operation that is expected to succeed. -/
def expect {β : Type} (lines : List Line) (r : Checked (Except Error β × Side)) :
    Except (List Line) (β × Side) :=
  match r with
  | .ok (.ok x, h) => .ok (x, h)
  | _ => .error lines

/-- The host at an address, with the usual settings. -/
def side (address : Address) : Side := .start { address } {} { address }

/-- Creates the connection on both sides and lets the server wait. -/
def setUp (a : Arguments) : Progress := do
  let (active, c) ← expect [] ((side a.client).create a.server a.serverPort a.clientPort)
  let (passive, s) ← expect [] ((side a.server).create a.client a.clientPort a.serverPort)
  let ((), s) ← expect [] (s.listen passive)
  return { client := c, server := s, active, passive, lines := [] }

/-- Prints the states of both sides. -/
def showStates (step : String) (r : Rig) : Progress :=
  match r.client.get? r.active, r.server.get? r.passive with
  | some c, some s =>
    .ok { r with lines := r.lines ++ [.states step (c.state, c.tuple) (s.state, s.tuple)] }
  | _, _ => .error r.lines

/-- The datagrams in the outbox of a host, and the host without them. -/
def drain (h : Side) : List Datagram × Side :=
  let (sent, network) := h.link.network.collect
  (sent, { h with link := { h.link with network } })

/-- Prints datagrams and passes them to a host, one after the other. -/
def pass (h : Side) (lines : List Line) :
    List Datagram → Except (List Line) (Side × List Line)
  | [] => .ok (h, lines)
  | d :: ds =>
    match d.header with
    | .ok (.ok header) => do
      let lines := lines ++ [.segment d.src d.dst header]
      let ((), h) ← expect lines (h.receive d.payload d.src d.dst)
      pass h lines ds
    | _ => .error lines

/-- Passes what the client has sent to the server. -/
def toServer (r : Rig) : Progress := do
  let (sent, client) := drain r.client
  let (server, lines) ← pass r.server r.lines sent
  return { r with client, server, lines }

/-- Passes what the server has sent to the client. -/
def toClient (r : Rig) : Progress := do
  let (sent, server) := drain r.server
  let (client, lines) ← pass r.client r.lines sent
  return { r with client, server, lines }

/-- Lets the client open the connection. -/
def connect (r : Rig) : Progress := do
  let ((), client) ← expect r.lines (r.client.connect r.active)
  return { r with client }

/-- Lets the client send a segment. -/
def send (flags : Flags) (payload : Octets) (r : Rig) : Progress := do
  let ((), client) ← expect r.lines (r.client.send r.active flags payload)
  return { r with client }

/-- Gives up both hosts. -/
def stop (r : Rig) : Except (List Line) (List Line) :=
  match r.client.stop, r.server.stop with
  | .ok (m, _), .ok (n, _) => .ok (r.lines ++ [.stopped (m + n)])
  | _, _ => .error r.lines

/-- The steps before the message is sent. -/
def opening (a : Arguments) : Progress := do
  let r ← setUp a
  let r ← showStates "initial" r
  let r ← connect r
  let r ← toServer r
  let r ← toClient r
  showStates "syn exchanged" r

/-- The steps from the message on. -/
def conversation (message : Octets) (r : Rig) : Except (List Line) (List Line) := do
  let r ← send (.ACK ||| .PSH) message r
  let r ← toServer r
  let r ← showStates "established" r
  let r ← send (.FIN ||| .ACK) [] r
  let r ← toServer r
  let r ← toClient r
  let r ← showStates "closed by client" r
  stop r

/-- The lines of a run, or those printed before it failed. -/
def lines (a : Arguments) : Except (List Line) (List Line) :=
  opening a >>= conversation a.octets

/-- What a program leaves behind: the text that it has printed, line by line, and its exit code. -/
structure Result where
  lines : List String
  exitCode : UInt8
deriving DecidableEq, Repr

/-- The exit code of a run in which a step fails. -/
def failureCode : UInt8 := 101

/-- A run, from the first line to the exit code. -/
def run (a : Arguments) : Result :=
  match lines a with
  | .ok ls => { lines := ls.map toString, exitCode := 0 }
  | .error ls => { lines := ls.map toString, exitCode := failureCode }

/-- The whole program. The command line is read by `read`, which says what the run is told, or
leaves a result of its own and there is no run. -/
def program (read : List Octets → Except Result Arguments) (commandLine : List Octets) : Result :=
  match read commandLine with
  | .ok a => run a
  | .error r => r

end Loopback

end TcpEngine
