import TcpEngine.Loopback.Arguments
import TcpEngine.Proofs.Dialogue
import TcpEngine.Proofs.Registry
import TcpEngine.Proofs.SeqNumber

/-!
# The loopback run

Both hosts of a loopback run stand with one record each, from its beginning to its end. A step does
with them what the records say to each other, so that the whole run is a computation on two records.

* `script`: the lines of a run with a message that fits a segment, and `transcript`: their text,
  written out.
* `Rig.Shows`: what a rig stands for: the two records, what they have said that was not passed on
  yet, and the lines printed so far. There is one lemma for each step.
* `lines_eq_script`, `run_eq_transcript`: every run, between any addresses and ports and with any
  message.
* `program_eq_transcript`: what the program leaves behind, whoever reads its command line.
-/

namespace TcpEngine

namespace Loopback

/-! ## What is printed -/

/-- The lines of a run with a message that fits a segment. -/
def script (a : Arguments) : List Line :=
  let near : FourTuple := ⟨a.client, a.server, a.clientPort, a.serverPort⟩
  let far : FourTuple := ⟨a.server, a.client, a.serverPort, a.clientPort⟩
  let m := a.octets.length
  [.states "initial" (.closed, near) (.listen, far),
   .segment a.client a.server ⟨a.clientPort, a.serverPort, ⟨0⟩, ⟨0⟩, .SYN, 65535, 0⟩,
   .segment a.server a.client ⟨a.serverPort, a.clientPort, ⟨0⟩, ⟨1⟩, .SYN ||| .ACK, 65535, 0⟩,
   .states "syn exchanged" (.established, near) (.synReceived, far),
   .segment a.client a.server
     ⟨a.clientPort, a.serverPort, ⟨1⟩, ⟨0⟩, .ACK ||| .PSH, 65535, UInt16.ofNat m⟩,
   .states "established" (.established, near) (.established, far),
   .segment a.client a.server
     ⟨a.clientPort, a.serverPort, ⟨UInt32.ofNat (m + 1)⟩, ⟨0⟩, .FIN ||| .ACK, 65535, 0⟩,
   .segment a.server a.client
     ⟨a.serverPort, a.clientPort, ⟨1⟩, ⟨UInt32.ofNat (m + 2)⟩, .ACK, 65535, 0⟩,
   .segment a.server a.client
     ⟨a.serverPort, a.clientPort, ⟨1⟩, ⟨UInt32.ofNat (m + 2)⟩, .FIN ||| .ACK, 65535, 0⟩,
   .states "closed by client" (.lastAck, near) (.lastAck, far),
   .stopped 2]

/-- The text of a run, line by line. A message that fits a segment is so short that none of the
numbers wraps around. -/
def transcript (a : Arguments) : List String :=
  let client := s!"{a.client.a}.{a.client.b}.{a.client.c}.{a.client.d}"
  let server := s!"{a.server.a}.{a.server.b}.{a.server.c}.{a.server.d}"
  let near := s!"{client}:{a.clientPort} <-> {server}:{a.serverPort}"
  let far := s!"{server}:{a.serverPort} <-> {client}:{a.clientPort}"
  let out := s!"{client} -> {server}: TCP src={a.clientPort} dst={a.serverPort}"
  let back := s!"{server} -> {client}: TCP src={a.serverPort} dst={a.clientPort}"
  let m := a.message.utf8ByteSize
  [s!"initial: client CLOSED ({near}), server LISTEN ({far})",
   s!"{out} syn seq=0 win=65535 len=0",
   s!"{back} syn|ack seq=0 ack=1 win=65535 len=0",
   s!"syn exchanged: client ESTABLISHED ({near}), server SYN-RECEIVED ({far})",
   s!"{out} ack|psh seq=1 ack=0 win=65535 len={m}",
   s!"established: client ESTABLISHED ({near}), server ESTABLISHED ({far})",
   s!"{out} ack|fin seq={m + 1} ack=0 win=65535 len=0",
   s!"{back} ack seq=1 ack={m + 2} win=65535 len=0",
   s!"{back} ack|fin seq=1 ack={m + 2} win=65535 len=0",
   s!"closed by client: client LAST-ACK ({near}), server LAST-ACK ({far})",
   "tore down 2 connections"]

theorem Arguments.length_octets (a : Arguments) : a.octets.length = a.message.utf8ByteSize := rfl

theorem toString_states (step : String) (x y : State) (u v : FourTuple) :
    toString (Line.states step (x, u) (y, v)) =
      step ++ ": client " ++ x.name ++ " (" ++ toString u ++ "), server " ++ y.name ++ " (" ++
        toString v ++ ")" := rfl

theorem toString_segment (src dst : Address) (h : Header) :
    toString (Line.segment src dst h) =
      toString src ++ " -> " ++ toString dst ++ ": " ++
        ("TCP src=" ++ toString h.srcPort ++ " dst=" ++ toString h.dstPort ++ " " ++
          toString h.flags ++ " seq=" ++ toString h.seqNumber.value.toNat ++
          (if h.flags.ack then " ack=" ++ toString h.ackNumber.value.toNat else "") ++
          " win=" ++ toString h.window.toNat ++ " len=" ++ toString h.payloadLen.toNat) := rfl

/-- The flags that are sent in a run, as they are written. -/
theorem sent_flags :
    (toString Flags.SYN = "syn" ∧ Flags.SYN.ack = false) ∧
    (toString (Flags.SYN ||| .ACK) = "syn|ack" ∧ (Flags.SYN ||| .ACK).ack = true) ∧
    (toString (Flags.ACK ||| .PSH) = "ack|psh" ∧ (Flags.ACK ||| .PSH).ack = true) ∧
    (toString (Flags.FIN ||| .ACK) = "ack|fin" ∧ (Flags.FIN ||| .ACK).ack = true) ∧
    toString Flags.ACK = "ack" ∧ Flags.ACK.ack = true := by
  decide +kernel

/-- The lines are printed as the transcript says. -/
theorem map_toString_script {a : Arguments} (hm : a.message.utf8ByteSize ≤ 65515) :
    (script a).map toString = transcript a := by
  have hlen : (UInt16.ofNat a.message.utf8ByteSize).toNat = a.message.utf8ByteSize :=
    UInt16.toNat_ofNat_of_lt' (Nat.lt_of_le_of_lt hm (by decide))
  have hnext (n : Nat) (hn : n ≤ 2) : (UInt32.ofNat (a.message.utf8ByteSize + n)).toNat =
      a.message.utf8ByteSize + n :=
    UInt32.toNat_ofNat_of_lt' (Nat.lt_of_le_of_lt (Nat.add_le_add hm hn) (by decide))
  have haddress (x : Address) : toString x =
      toString x.a ++ "." ++ toString x.b ++ "." ++ toString x.c ++ "." ++ toString x.d := rfl
  have htuple (u : FourTuple) : toString u =
      toString u.localAddr ++ ":" ++ toString u.localPort ++ " <-> " ++
        toString u.remoteAddr ++ ":" ++ toString u.remotePort := rfl
  have hstopped : toString (Line.stopped 2) = "tore down 2 connections" := rfl
  have hself (s : String) : toString s = s := rfl
  have hone : toString (1 : UInt32).toNat = "1" := rfl
  have hwindow : toString (65535 : UInt16).toNat = "65535" := rfl
  simp only [script, transcript, List.map_cons, List.map_nil, toString_states, toString_segment,
    State.name, sent_flags, a.length_octets, hlen, hnext 1 (by decide), hnext 2 (by decide),
    haddress, htuple, hstopped, hself, hone, hwindow]
  -- The pieces of a line are cut elsewhere than those of its text, but they are the same characters.
  simp [← String.toList_inj]

/-- What is printed before the message is sent does not depend on it. -/
theorem map_toString_opening (a : Arguments) :
    ((script a).take 4).map toString = (transcript a).take 4 := by
  let b : Arguments := { a with message := "" }
  have hscript : (script a).take 4 = (script b).take 4 := by
    simp only [b, script, List.take_succ_cons, List.take_zero]
  have htranscript : (transcript a).take 4 = (transcript b).take 4 := by
    simp only [b, transcript, List.take_succ_cons, List.take_zero]
  rw [hscript, htranscript, List.map_take, map_toString_script (Nat.zero_le _)]

/-! ## The steps -/

/-- The rig stands for the records `c` and `s` with what they have said, and has printed `ls`. -/
structure Rig.Shows (r : Rig) (c : Connection) (xs : List Utterance) (s : Connection)
    (ys : List Utterance) (ls : List Line) : Prop where
  client : Stands r.client r.active c xs
  server : Stands r.server r.passive s ys
  lines : r.lines = ls

/-- A host with a record that was just created. -/
theorem create_stands (here there : Address) (herePort therePort : UInt16) :
    ∃ h k, (side here).create there therePort herePort = .ok (.ok k, h) ∧
      Stands h k (.new ⟨here, there, herePort, therePort⟩ {}) [] := by
  have hw : (side here).table.records.WellFormed := SlotMap.empty_wellFormed _
  obtain ⟨⟨k, hf⟩, -⟩ | ⟨-, hfull, -⟩ | ⟨-, k, m, hm, he⟩ :=
    ConnectionTable.create_cases hw there therePort herePort
  · cases hf
  · exact absurd hfull (Nat.not_succ_le_zero 63)
  · obtain ⟨h, hc, ht, hnet⟩ : ∃ h, (side here).create there therePort herePort = .ok (.ok k, h) ∧
        h.table = (side here).table.enroll ⟨here, there, herePort, therePort⟩ k m ∧
        h.link.network = { address := here } := ⟨_, Host.create_eq he, rfl, rfl⟩
    refine ⟨h, k, hc, ?_, ?_, ?_, hnet, ?_, ?_⟩
    · unfold Host.get?
      rw [ht]
      exact (ConnectionTable.get?_enroll hm _ k).trans (if_pos rfl)
    · rw [ht]
      exact (ConnectionTable.find?_enroll ..).trans (if_pos rfl)
    · rw [ht]
      rfl
    · rw [ht]
      exact hm.wellFormed
    · rw [ht]
      exact ConnectionTable.len_enroll hm _

theorem setUp_shows (a : Arguments) :
    ∃ r, setUp a = .ok r ∧
      r.Shows (.new ⟨a.client, a.server, a.clientPort, a.serverPort⟩ {}) []
        { Connection.new ⟨a.server, a.client, a.serverPort, a.clientPort⟩ {} with
          state := .listen } [] [] := by
  obtain ⟨c, active, hc, hcs⟩ := create_stands a.client a.server a.clientPort a.serverPort
  obtain ⟨s, passive, hs, hss⟩ := create_stands a.server a.client a.serverPort a.clientPort
  obtain ⟨s', hl, hss'⟩ := hss.listen rfl
  refine ⟨⟨c, s', active, passive, []⟩, ?_, hcs, hss', rfl⟩
  unfold setUp
  rw [hc, hs]
  show (expect [] (s.listen passive) >>= fun _ => _) = _
  rw [hl]
  rfl

namespace Rig.Shows

variable {r : Rig} {c s : Connection} {xs ys : List Utterance} {ls : List Line}

theorem showStates (hr : r.Shows c xs s ys ls) (step : String) :
    ∃ r', Loopback.showStates step r = .ok r' ∧
      r'.Shows c xs s ys (ls ++ [.states step (c.state, c.tuple) (s.state, s.tuple)]) := by
  refine ⟨{ r with lines := ls ++ [.states step (c.state, c.tuple) (s.state, s.tuple)] }, ?_,
    hr.client, hr.server, rfl⟩
  unfold Loopback.showStates
  rw [hr.client.live, hr.server.live, hr.lines]

/-- The client opens the connection. -/
theorem connect (hr : r.Shows c xs s ys ls) {t : Transition}
    (hn : c.state.next? .activeOpen = some t) :
    ∃ r', Loopback.connect r = .ok r' ∧ r'.Shows (c.turn t).1 (xs ++ (c.turn t).2) s ys ls := by
  obtain ⟨h', he, hs⟩ := hr.client.connect hn
  refine ⟨{ r with client := h' }, ?_, hs, hr.server, hr.lines⟩
  unfold Loopback.connect
  rw [he]
  rfl

/-- The client sends a segment. -/
theorem send (hr : r.Shows c xs s ys ls) (f : Flags) {p : Octets}
    (hp : p.length ≤ Link.maxPayload) :
    ∃ r', Loopback.send f p r = .ok r' ∧
      r'.Shows (c.advance f p) (xs ++ [⟨c, f, p⟩]) s ys ls := by
  obtain ⟨h', he, hs⟩ := hr.client.say f hp
  refine ⟨{ r with client := h' }, ?_, hs, hr.server, hr.lines⟩
  unfold Loopback.send
  rw [he]
  rfl

/-- A message that is too long for a segment ends the run. -/
theorem send_tooLong (hr : r.Shows c xs s ys ls) (f : Flags) {p : Octets}
    (hp : Link.maxPayload < p.length) : Loopback.send f p r = .error ls := by
  have he : r.client.link.send c f p = _ := if_pos hp
  unfold Loopback.send
  rw [Host.send_eq hr.client.live he, hr.lines]
  rfl

/-- What the client has said is passed to the server. -/
theorem toServer (hr : r.Shows c xs s ys ls) (hxs : ∀ x ∈ xs, x.On s.tuple.mirror) :
    ∃ r', Loopback.toServer r = .ok r' ∧
      r'.Shows c [] (s.hear xs).1 (ys ++ (s.hear xs).2) (ls ++ xs.map Utterance.line) := by
  obtain ⟨h, hd, hc⟩ := hr.client.drain
  obtain ⟨h', he, hs⟩ := hr.server.pass hxs ls
  refine ⟨{ r with client := h, server := h', lines := _ }, ?_, hc, hs, rfl⟩
  unfold Loopback.toServer
  rw [hd, hr.lines]
  dsimp only
  rw [he]
  rfl

/-- What the server has said is passed to the client. -/
theorem toClient (hr : r.Shows c xs s ys ls) (hys : ∀ y ∈ ys, y.On c.tuple.mirror) :
    ∃ r', Loopback.toClient r = .ok r' ∧
      r'.Shows (c.hear ys).1 (xs ++ (c.hear ys).2) s [] (ls ++ ys.map Utterance.line) := by
  obtain ⟨h, hd, hs⟩ := hr.server.drain
  obtain ⟨h', he, hc⟩ := hr.client.pass hys ls
  refine ⟨{ r with client := h', server := h, lines := _ }, ?_, hc, hs, rfl⟩
  unfold Loopback.toClient
  rw [hd, hr.lines]
  dsimp only
  rw [he]
  rfl

theorem stop (hr : r.Shows c xs s ys ls) : Loopback.stop r = .ok (ls ++ [.stopped 2]) := by
  obtain ⟨l, he⟩ := Host.stop_eq hr.client.wellFormed
  obtain ⟨l', he'⟩ := Host.stop_eq hr.server.wellFormed
  unfold Loopback.stop
  rw [he, he', hr.client.one, hr.server.one, hr.lines]

end Rig.Shows

/-! ## The run -/

section

variable {a : Arguments} {r : Rig} {ls : List Line}

/-- The connection is open for the client, which has acknowledged nothing, and almost for the
server. -/
def Rig.Opened (r : Rig) (a : Arguments) (ls : List Line) : Prop :=
  r.Shows ⟨.established, ⟨a.client, a.server, a.clientPort, a.serverPort⟩, ⟨1⟩, ⟨0⟩, ⟨0⟩, 65535⟩ []
    ⟨.synReceived, ⟨a.server, a.client, a.serverPort, a.clientPort⟩, ⟨1⟩, ⟨0⟩, ⟨1⟩, 65535⟩ [] ls

theorem opening_opened (a : Arguments) :
    ∃ r, opening a = .ok r ∧ r.Opened a ((script a).take 4) := by
  obtain ⟨r₀, h₀, hr₀⟩ := setUp_shows a
  obtain ⟨r₁, h₁, hr₁⟩ := hr₀.showStates "initial"
  obtain ⟨r₂, h₂, hr₂⟩ := hr₁.connect rfl
  rw [Connection.new, Connection.turn_open] at hr₂
  -- The SYN of the client takes the server to SYN-RECEIVED, and its answer opens the connection.
  obtain ⟨r₃, h₃, hr₃⟩ := hr₂.toServer (List.forall_mem_singleton.mpr ⟨rfl, Nat.zero_le _⟩)
  rw [Connection.new, List.nil_append, Connection.hear_syn _ _ _ _ _ rfl] at hr₃
  obtain ⟨r₄, h₄, hr₄⟩ := hr₃.toClient (List.forall_mem_singleton.mpr ⟨rfl, Nat.zero_le _⟩)
  rw [List.nil_append, Connection.hear_synAck _ _ _ _ _ rfl] at hr₄
  obtain ⟨r₅, h₅, hr₅⟩ := hr₄.showStates "syn exchanged"
  refine ⟨r₅, ?_, hr₅⟩
  simp only [opening, h₀, h₁, h₂, h₃, h₄, h₅, Except.ok_bind]

/-- The records count the octets of the message and the FINs from 1 on. -/
theorem Rig.Opened.conversation_eq (hr : r.Opened a ((script a).take 4))
    (hm : a.octets.length ≤ Link.maxPayload) : conversation a.octets r = .ok (script a) := by
  have hsent (n : Nat) : (⟨1⟩ : SeqNumber).add n = ⟨UInt32.ofNat (n + 1)⟩ :=
    congrArg SeqNumber.mk ((UInt32.add_comm ..).trans (UInt32.ofNat_add n 1).symm)
  have hnext (n : Nat) : (⟨UInt32.ofNat (n + 1)⟩ : SeqNumber).add 1 = ⟨UInt32.ofNat (n + 2)⟩ :=
    congrArg SeqNumber.mk (UInt32.ofNat_add (n + 1) 1).symm
  obtain ⟨r₁, h₁, hr₁⟩ := hr.send (.ACK ||| .PSH) hm
  rw [Connection.advance_eq _ _ hm, List.nil_append] at hr₁
  change r₁.Shows ⟨.established, _, .add ⟨1⟩ a.octets.length, ⟨0⟩, ⟨0⟩, 65535⟩ _ _ _ _ at hr₁
  rw [hsent] at hr₁
  -- The ACK in the message is what the server has waited for.
  obtain ⟨r₂, h₂, hr₂⟩ := hr₁.toServer (List.forall_mem_singleton.mpr ⟨rfl, hm⟩)
  rw [Connection.hear_message _ _ _ _ _ rfl] at hr₂
  obtain ⟨r₃, h₃, hr₃⟩ := hr₂.showStates "established"
  obtain ⟨r₄, h₄, hr₄⟩ := hr₃.send (p := []) (.FIN ||| .ACK) (Nat.zero_le _)
  rw [Connection.advance_nil, List.nil_append] at hr₄
  obtain ⟨r₅, h₅, hr₅⟩ := hr₄.toServer (List.forall_mem_singleton.mpr ⟨rfl, Nat.zero_le _⟩)
  rw [List.nil_append, Connection.hear_fin _ _ _ _ _ rfl] at hr₅
  dsimp only at hr₅
  rw [hnext] at hr₅
  -- The client heeds the FIN of the server as the server has heeded its own; nothing of what it
  -- says to that is passed on.
  obtain ⟨r₆, h₆, hr₆⟩ := hr₅.toClient (List.forall_mem_cons.mpr ⟨⟨rfl, Nat.zero_le _⟩,
    List.forall_mem_singleton.mpr ⟨rfl, Nat.zero_le _⟩⟩)
  rw [List.nil_append, Connection.hear_ack _ _ _ _ _ rfl, Connection.hear_fin _ _ _ _ _ rfl] at hr₆
  obtain ⟨r₇, h₇, hr₇⟩ := hr₆.showStates "closed by client"
  simp only [conversation, h₁, h₂, h₃, h₄, h₅, h₆, h₇, hr₇.stop, Except.ok_bind]
  rfl

theorem Rig.Opened.conversation_tooLong (hr : r.Opened a ls)
    (hm : Link.maxPayload < a.octets.length) : conversation a.octets r = .error ls := by
  unfold conversation
  rw [hr.send_tooLong _ hm]
  rfl

/-- A run prints the whole script if the message fits a segment; if not, it fails when the message
is to be sent. -/
theorem lines_eq_script (a : Arguments) : lines a =
    if a.octets.length ≤ Link.maxPayload then .ok (script a) else .error ((script a).take 4) := by
  obtain ⟨r, he, hr⟩ := opening_opened a
  have hlines : lines a = conversation a.octets r := by
    unfold lines
    rw [he, Except.ok_bind]
  split_ifs with hm
  · exact hlines.trans (hr.conversation_eq hm)
  · exact hlines.trans (hr.conversation_tooLong (Nat.lt_of_not_le hm))

-- `run` is unfolded without its argument: the match on `lines` would be evaluated with it.

theorem run_of_ok (h : lines a = .ok ls) : run a = { lines := ls.map toString, exitCode := 0 } := by
  conv => lhs; enter [0]; delta run
  rw [h]

theorem run_of_error (h : lines a = .error ls) :
    run a = { lines := ls.map toString, exitCode := failureCode } := by
  conv => lhs; enter [0]; delta run
  rw [h]

theorem run_eq_transcript (a : Arguments) : run a =
    if a.message.utf8ByteSize ≤ 65515 then { lines := transcript a, exitCode := 0 }
    else { lines := (transcript a).take 4, exitCode := 101 } := by
  split_ifs with hm
  · rw [run_of_ok ((lines_eq_script a).trans (if_pos hm)), map_toString_script hm]
  · rw [run_of_error ((lines_eq_script a).trans (if_neg hm)), map_toString_opening]
    rfl

end

/-- The program prints the whole transcript if the message fits a segment; if not, it fails when the
message is to be sent. That is so between any two addresses and ports, whoever has read them on the
command line. -/
theorem program_eq_transcript {read : List Octets → Except Result Arguments}
    {commandLine : List Octets} {a : Arguments} (hread : read commandLine = .ok a) :
    (transcript a).length = 11 ∧
      program read commandLine =
        if a.message.utf8ByteSize ≤ 65515 then { lines := transcript a, exitCode := 0 }
        else { lines := (transcript a).take 4, exitCode := 101 } := by
  refine ⟨rfl, ?_⟩
  unfold program
  rw [hread]
  exact run_eq_transcript a

/-- A host greets itself. -/
theorem program_eq_transcript_self :
    let commandLine := ["10.0.0.1", "80", "10.0.0.1", "80", "hi"].map fun s => s.toUTF8.toList
    readArguments commandLine = .ok ⟨⟨10, 0, 0, 1⟩, 80, ⟨10, 0, 0, 1⟩, 80, "hi"⟩ ∧
      program readArguments commandLine =
        { lines :=
            ["initial: client CLOSED (10.0.0.1:80 <-> 10.0.0.1:80), " ++
               "server LISTEN (10.0.0.1:80 <-> 10.0.0.1:80)",
             "10.0.0.1 -> 10.0.0.1: TCP src=80 dst=80 syn seq=0 win=65535 len=0",
             "10.0.0.1 -> 10.0.0.1: TCP src=80 dst=80 syn|ack seq=0 ack=1 win=65535 len=0",
             "syn exchanged: client ESTABLISHED (10.0.0.1:80 <-> 10.0.0.1:80), " ++
               "server SYN-RECEIVED (10.0.0.1:80 <-> 10.0.0.1:80)",
             "10.0.0.1 -> 10.0.0.1: TCP src=80 dst=80 ack|psh seq=1 ack=0 win=65535 len=2",
             "established: client ESTABLISHED (10.0.0.1:80 <-> 10.0.0.1:80), " ++
               "server ESTABLISHED (10.0.0.1:80 <-> 10.0.0.1:80)",
             "10.0.0.1 -> 10.0.0.1: TCP src=80 dst=80 ack|fin seq=3 ack=0 win=65535 len=0",
             "10.0.0.1 -> 10.0.0.1: TCP src=80 dst=80 ack seq=1 ack=4 win=65535 len=0",
             "10.0.0.1 -> 10.0.0.1: TCP src=80 dst=80 ack|fin seq=1 ack=4 win=65535 len=0",
             "closed by client: client LAST-ACK (10.0.0.1:80 <-> 10.0.0.1:80), " ++
               "server LAST-ACK (10.0.0.1:80 <-> 10.0.0.1:80)",
             "tore down 2 connections"]
          exitCode := 0 } := by
  intro commandLine
  have hread : readArguments commandLine =
      .ok ⟨⟨10, 0, 0, 1⟩, 80, ⟨10, 0, 0, 1⟩, 80, "hi"⟩ := by decide +kernel
  refine ⟨hread, (program_eq_transcript hread).2.trans ?_⟩
  decide +kernel

end Loopback

end TcpEngine
