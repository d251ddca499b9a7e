import FrontEnd.CommandLine.Run

/-!
# FrontEnd.Main

The program: reads the file that the command line names, and prints what the run comes to.
-/

open FrontEnd
open FrontEnd.CommandLine

/-- The bytes of a file, or why there are none. -/
def readBytes (path : String) : IO (Except ReadFault ByteArray) := do
  match ← (IO.FS.readBinFile path).toBaseIO with
  | .ok bytes => return .ok bytes
  | .error (.noFileOrDirectory ..) => return .error .notFound
  | .error error => return .error (.refused (toString error))

def main (arguments : List String) : IO UInt32 := do
  let bytes ← match parse arguments with
    | .error _ => pure (.error .notFound)
    | .ok parsed =>
      match parsed.command.file? with
      | none => pure (.error .notFound)
      | some file => readBytes file
  let execution := run arguments fun _ => bytes
  (← IO.getStdout).putStr execution.stdout
  for line in execution.report do
    (← IO.getStderr).putStrLn line
  return execution.status.toUInt32
