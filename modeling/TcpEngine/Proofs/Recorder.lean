import TcpEngine.Proofs.Transitions

/-!
# Recorders

A recorder is a network layer with a memory. Under it lies another layer, which accepts or refuses
the segments; the recorder keeps all of them, the refused ones too. It hands over one datagram for
each segment that is sent (`Link.Handed.handed`, `Link.Replied.handed`), and never forgets one
(`Link.Fed.handed_le`).
-/

namespace TcpEngine

/-- A network layer with the datagrams that were handed to it, in order. -/
structure Recorder (ν : Type) where
  layer : ν
  handed : List Datagram := []
deriving DecidableEq, Repr

namespace Recorder

variable {ν : Type} [Network ν]

def deliver (n : Recorder ν) (dst : Address) (protocol : Protocol) (payload : Octets) :
    Except Refusal Unit × Recorder ν :=
  let d : Datagram := { src := Network.address n.layer, dst, protocol, payload }
  let (answer, layer) := Network.deliver n.layer dst protocol payload
  (answer, { layer, handed := n.handed ++ [d] })

end Recorder

instance {ν : Type} [Network ν] : Network (Recorder ν) where
  address n := Network.address n.layer
  deliver := Recorder.deliver

namespace Link

variable {α ν : Type} [Network ν] {l l' : Link α (Recorder ν)} {c c' : Connection}

theorem Handed.handed {f : Flags} {p : Octets} {r : Option Refusal} (h : l.Handed c f p r l') :
    l'.network.handed = l.network.handed ++
      [{ src := Network.address l.network, dst := c.tuple.remoteAddr, protocol := .tcp
         payload := c.segment f p }] := by
  rw [h.network]
  rfl

theorem Replied.handed {fs : List Flags} {r : Option Refusal} (h : l.Replied c fs r c' l') :
    l'.network.handed.length = l.network.handed.length + fs.length := by
  induction h with
  | nil _ _ => rfl
  | cons hh _ ih =>
    rw [ih, hh.handed, List.length_append, List.length_cons]
    simp only [List.length_cons, List.length_nil]
    omega

theorem Carried.handed_le {e : Event} {t : Transition} {a : Except Error Unit}
    (h : l.Carried c e t a c' l') : l.network.handed.length ≤ l'.network.handed.length := by
  cases h with
  | completed hr =>
    rw [network_settle, hr.handed]
    exact Nat.le_add_right _ _
  | undone _ hu =>
    rw [hu.network]
    exact Nat.le_refl _
  | halted _ _ hr hu =>
    rw [hu.network, hr.handed]
    exact Nat.le_add_right _ _

theorem Fed.handed_le {r : Option Refusal} {es : List Event} {a : Except Error Unit}
    (h : l.Fed c r es a c' l') : l.network.handed.length ≤ l'.network.handed.length := by
  induction h with
  | nil _ _ _ => exact Nat.le_refl _
  | ignored _ _ ih => exact ih
  | carried _ hc _ ih => exact Nat.le_trans hc.handed_le ih
  | stopped _ hc => exact hc.handed_le

end Link

end TcpEngine
