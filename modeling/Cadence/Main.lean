import Cadence.CommandLine
/-!
The program: it reads the scenario file that its arguments name and prints what the run leaves
behind.
-/

namespace Cadence.CommandLine

def readContent (path : String) : IO (Except String String) := do
  try
    return .ok (← IO.FS.readFile path)
  catch
    | .noFileOrDirectory .. => return .error "No such file or directory (os error 2)"
    | e => return .error (toString e)

end Cadence.CommandLine

open Cadence in
def main (args : List String) : IO UInt32 := do
  let content ←
    match CommandLine.path? args with
    | some path => CommandLine.readContent path
    | none => pure (.error "")
  let output := CommandLine.run args false content
  (← IO.getStdout).putStr output.stdout
  (← IO.getStderr).putStr output.stderr
  return output.exitCode.toUInt32
