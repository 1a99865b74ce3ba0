import Winnow.Console

/-!
# Running the program

Reads what a call names, and prints what it leaves behind.
-/

namespace Winnow

/-- The problem that an error of the system stands for. -/
def FileProblem.ofError : IO.Error → FileProblem
  | .permissionDenied .. => .denied
  | .inappropriateType .. => .directory
  | _ => .absent

/-- Read a file. -/
def readPath (path : String) : IO (Except FileProblem ByteArray) := do
  try return .ok (← IO.FS.readBinFile path)
  catch error => return .error (FileProblem.ofError error)

/-- Read files. -/
def readPaths (paths : List String) : IO Files := do
  let contents ← paths.mapM fun path => do return (path, ← readPath path)
  return fun path => (Assoc.find? contents path).getD (.error .absent)

/-- Read the standard input to its end. -/
partial def readInput (input : IO.FS.Stream) (text : String) : IO String := do
  let line ← input.getLine
  if line.isEmpty then return text else readInput input (text ++ line)

end Winnow

open Winnow

/-- Carry out a call. A fault ends it with the exit code one. -/
def main (arguments : List String) : IO UInt32 := do
  let files ← readPaths (Console.pathsOf arguments)
  let input ← if Console.readsInput arguments then do
      readInput (← IO.getStdin) ""
    else pure ""
  match Console.run { files := files, input := input } arguments with
  | .ok outcome =>
    (← IO.getStdout).putStr outcome.output
    (← IO.getStderr).putStr outcome.errors
    return outcome.code.toUInt32
  | .error fault =>
    (← IO.getStderr).putStrLn ("trimhtml: " ++ fault.wording)
    return 1
