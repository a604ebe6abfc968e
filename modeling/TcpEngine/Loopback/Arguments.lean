import TcpEngine.Address.Text
import TcpEngine.Loopback

/-!
# Reading the command line of a loopback run

A command line has five arguments: the client's address and port, the server's address and port,
and the message. An argument that starts with a dash and is longer than that is an option; the
argument `--` ends the options and is left out itself.

This reader has no options. One that asks for a text about the program, such as its help or its
version, is refused like any other here. What a run does with its arguments does not depend on the
reader: `program` takes any.
-/

namespace TcpEngine

namespace Loopback

/-- The exit code for arguments that cannot be read. -/
def usageCode : UInt8 := 1

/-- What is left behind if the arguments cannot be read. -/
def usage : Result := { lines := [], exitCode := usageCode }

/-- A value that was read, if it could be. -/
def readable {α : Type} : Option α → Except Result α
  | some x => .ok x
  | none => .error usage

/-- The port with the decimal text `s`, which may have a plus sign in front. -/
def port? (s : String) : Option UInt16 :=
  let digits := match s.toList with
    | '+' :: ds => ds
    | ds => ds
  if digits ≠ [] ∧ digits.all Char.isDigit ∧ Address.value digits ≤ 65535 then
    some (UInt16.ofNat (Address.value digits))
  else none

/-- The text of an argument, if it is one. -/
def text? (b : Octets) : Option String := String.fromUTF8? ⟨b.toArray⟩

/-- The arguments that are not options, or nothing if there is an option. -/
def positional : List Octets → Option (List Octets)
  | [] => some []
  | a :: as =>
    if a = "--".toUTF8.toList then some as
    else if a.head? = some '-'.toNat.toUInt8 ∧ a.length > 1 then none
    else (positional as).map (a :: ·)

/-- The arguments on a command line. A message that is not text is a failure of the program. -/
def readArguments (commandLine : List Octets) : Except Result Arguments :=
  match positional commandLine with
  | some [client, clientPort, server, serverPort, message] => do
    let client ← readable ((text? client).bind Address.parse?)
    let clientPort ← readable ((text? clientPort).bind port?)
    let server ← readable ((text? server).bind Address.parse?)
    let serverPort ← readable ((text? serverPort).bind port?)
    match text? message with
    | some message => return { client, clientPort, server, serverPort, message }
    | none => .error { lines := [], exitCode := failureCode }
  | _ => .error usage

/-- The program with this reader. -/
def runArguments (commandLine : List Octets) : Result := program readArguments commandLine

end Loopback

end TcpEngine
