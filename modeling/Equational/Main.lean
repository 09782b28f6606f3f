import Equational.CommandLine

/-!
# Running from a shell

Files are read from disk, and the outcome is written to the standard streams.
-/

namespace Equational.CommandLine

/-- The text of a file, which has to be valid UTF-8. -/
def readFromDisk (path : String) : IO (Except ReadFault String) := do
  try
    let bytes ← IO.FS.readBinFile path
    match String.fromUTF8? bytes with
    | some text => return .ok text
    | none => return .error (.other "stream did not contain valid UTF-8")
  catch
    | .noFileOrDirectory .. => return .error .notFound
    -- A directory can be opened, and only reading it fails.
    | .inappropriateType _ 21 _ => return .error .isDirectory
    | .inappropriateType .. => return .error .notDirectory
    | fault => return .error (.other (toString fault))

end Equational.CommandLine

open Equational.CommandLine in
def main (arguments : List String) : IO UInt32 := do
  let outcome ← run readFromDisk (.ofArguments arguments)
  (← IO.getStdout).putStr outcome.output
  (← IO.getStderr).putStr outcome.errors
  return UInt32.ofNat outcome.exitCode
