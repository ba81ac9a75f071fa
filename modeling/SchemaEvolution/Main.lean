import SchemaEvolution.Command.Run

/-!
The program: runs a command over the files of the machine.
-/

open SchemaEvolution

def readFileText (path : String) : IO (Option String) := do
  match ← (IO.FS.readBinFile path).toBaseIO with
  | .ok bytes => return String.fromUTF8? bytes
  | .error _ => return none

def main (arguments : List String) : IO UInt32 := do
  let outcome ← Command.runArguments readFileText arguments
  IO.print outcome.printed
  match outcome.message? with
  | some message => IO.eprintln s!"Error: {message}"
  | none => pure ()
  return outcome.exitCode.toUInt32
