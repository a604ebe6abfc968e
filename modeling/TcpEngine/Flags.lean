/-!
# Segment flags

The control bits of a segment, kept as one octet. Bits without a meaning are carried along. SYN and
FIN each take one place in the sequence of octets that a connection sends.
-/

namespace TcpEngine

/-- The flag octet of a segment. -/
structure Flags where
  bits : UInt8 := 0
deriving DecidableEq, Repr, Inhabited

namespace Flags

/-- The sender has no more data. -/
def FIN : Flags := ⟨0x01⟩
/-- Synchronise sequence numbers. -/
def SYN : Flags := ⟨0x02⟩
/-- Reset the connection. -/
def RST : Flags := ⟨0x04⟩
/-- Push the data to the user. -/
def PSH : Flags := ⟨0x08⟩
/-- The acknowledgment number is in use. -/
def ACK : Flags := ⟨0x10⟩
/-- The urgent pointer is in use. -/
def URG : Flags := ⟨0x20⟩

instance : OrOp Flags := ⟨fun f g => ⟨f.bits ||| g.bits⟩⟩

/-- Some bit of `g` is set in `f`. -/
def has (f g : Flags) : Bool := f.bits &&& g.bits != 0

/-- FIN is set. -/
def fin (f : Flags) : Bool := f.has FIN
/-- SYN is set. -/
def syn (f : Flags) : Bool := f.has SYN
/-- RST is set. -/
def rst (f : Flags) : Bool := f.has RST
/-- PSH is set. -/
def psh (f : Flags) : Bool := f.has PSH
/-- ACK is set. -/
def ack (f : Flags) : Bool := f.has ACK
/-- URG is set. -/
def urg (f : Flags) : Bool := f.has URG

/-- The places that the flags take in the sequence of octets: one for SYN and one for FIN. -/
def sequenceLen (f : Flags) : Nat := f.syn.toNat + f.fin.toNat

/-- The names of the flags that are set, in the order in which they are written. -/
def names (f : Flags) : List String :=
  ([(SYN, "syn"), (ACK, "ack"), (FIN, "fin"), (RST, "rst"), (PSH, "psh"), (URG, "urg")].filter
    fun p => f.has p.1).map Prod.snd

instance : ToString Flags where
  toString f := if f.names.isEmpty then "-" else "|".intercalate f.names

end Flags

end TcpEngine
