import TcpEngine.Arena

/-!
# Arenas that follow a script

A scripted arena answers its requests as its script says, one entry after the other: a request
fails, or gets a buffer whose length is off by some number of octets. It serves to bring about
answers that other arenas give rarely or never. The arena writes down the calls it receives.
-/

namespace TcpEngine

/-- A call that an arena has received. -/
inductive ArenaCall where
  /-- A request for `len` octets, and the length of the buffer that was given. -/
  | allocate (len : Nat) (given : Option Nat)
  /-- A buffer of `len` octets was taken back. -/
  | release (len : Nat)
deriving DecidableEq, Repr

/-- An arena with a script. `none` lets a request fail, `some d` answers it with `d` octets more
than asked for, or fewer if `d` is negative. Behind the end of the script every request is granted
as it is. -/
structure Scripted where
  script : List (Option Int)
  /-- The calls received, in order. -/
  calls : List ArenaCall := []
deriving DecidableEq, Repr

namespace Scripted

/-- What the script says about the next request. -/
def next (a : Scripted) : Option Int := a.script.headD (some 0)

/-- A zeroed buffer as the script says. -/
def allocate (a : Scripted) (len : Nat) : Option Octets × Scripted :=
  let given := a.next.map fun d => (↑len + d : Int).toNat
  (given.map fun n => List.replicate n 0,
    { script := a.script.tail, calls := a.calls ++ [.allocate len given] })

def release (a : Scripted) (b : Octets) : Scripted :=
  { a with calls := a.calls ++ [.release b.length] }

/-- The calls written down, and the arena without them. -/
def report (a : Scripted) : List ArenaCall × Scripted := (a.calls, { a with calls := [] })

end Scripted

instance : Arena Scripted where
  allocate := Scripted.allocate
  release := Scripted.release

end TcpEngine
