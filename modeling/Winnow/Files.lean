import Winnow.Fault
import Winnow.Text.Blank
import Winnow.Text.Lines
import Winnow.Text.Quoted

/-!
# Reading files

What can go wrong when a file is read, and how the bytes of a file become text:
they have to be UTF-8, and every line end is read as a line feed.
-/

namespace Winnow

/-- Why a file cannot be read. -/
inductive FileProblem where
  | absent
  | notADirectory
  | directory
  | nameTooLong
  | denied
  deriving DecidableEq, Repr

/-- The number and the wording of a problem. -/
def FileProblem.wording : FileProblem → String
  | absent => "[Errno 2] No such file or directory"
  | notADirectory => "[Errno 20] Not a directory"
  | directory => "[Errno 21] Is a directory"
  | nameTooLong => "[Errno 36] File name too long"
  | denied => "[Errno 13] Permission denied"

/-- The wording of a problem with the path it arose for. -/
def FileProblem.message (problem : FileProblem) (path : String) : String :=
  problem.wording ++ ": " ++ Text.quoted path

/-- The contents of files by path, or why they cannot be read. -/
abbrev Files := String → Except FileProblem ByteArray

namespace Files

/-- The start of a path: one slash or none, or two if there are exactly two. -/
def pathRoot (cs : List Char) : List Char :=
  match (cs.takeWhile (· = '/')).length with
  | 0 => []
  | 2 => ['/', '/']
  | _ => ['/']

/-- A path without empty parts and parts that stay in place. -/
def tidyPath (path : String) : String :=
  let cs := path.toList
  let parts := (Text.splitAt '/' cs).filter fun part => !part.isEmpty && part != ['.']
  let tidy := pathRoot cs ++ Text.joinWith ['/'] parts
  if tidy.isEmpty then "." else String.ofList tidy

/-- The text of a file, or why the file cannot be read. -/
def readText (files : Files) (path : String) : Except Fault (Except String String) :=
  let path := tidyPath path
  if path.toList.contains (Char.ofNat 0) then .error .nullInPath
  else
    match files path with
    | .error problem => .ok (.error (problem.message path))
    | .ok bytes =>
      match String.fromUTF8? bytes with
      | none => .error .undecodable
      | some text => .ok (.ok (String.ofList (Text.unifyLineEnds text.toList)))

end Files

end Winnow
