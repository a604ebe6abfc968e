import TcpEngine.Network

/-!
# Errors of an operation

What an operation on a connection can answer instead of succeeding.
-/

namespace TcpEngine

/-- Why an operation on a connection fails. -/
inductive Error where
  /-- The operation is not possible in the present state. -/
  | notPermitted
  /-- There is no connection with this key. -/
  | noConnection
  /-- A segment would be longer than its length field can say. -/
  | tooLarge
  /-- There is no memory, or no room for another connection. -/
  | noMemory
  /-- The network layer refused a segment. -/
  | undelivered (r : Refusal)
  /-- A received segment is not accepted. -/
  | rejected (r : Rejection)
deriving DecidableEq, Repr

namespace Error

def message : Error → String
  | notPermitted => "operation not permitted"
  | noConnection => "no such connection"
  | tooLarge => "segment too large"
  | noMemory => "allocation failure"
  | undelivered r => s!"delivery failure: {r}"
  | rejected r => s!"rejected segment: {r}"

instance : ToString Error := ⟨message⟩

end Error

end TcpEngine
