import TcpEngine.Loopback.Arguments

/-!
# The command line of a loopback run

Prints the lines of the run with the given arguments.
-/

def main (arguments : List String) : IO UInt32 := do
  let result := TcpEngine.Loopback.runArguments (arguments.map fun a => a.toUTF8.toList)
  for line in result.lines do
    IO.println line
  if result.exitCode = TcpEngine.Loopback.usageCode then
    IO.eprintln "usage: CLIENT CLIENT-PORT SERVER SERVER-PORT MESSAGE"
  return result.exitCode.toUInt32
