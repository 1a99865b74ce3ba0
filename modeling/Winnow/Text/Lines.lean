/-!
# Lines

Two views of line ends. Reading a file turns every line end into a line feed;
splitting into lines then also breaks at the rarer separators.
-/

namespace Winnow.Text

/-- Write every carriage return, alone or before a line feed, as one line feed. -/
def unifyLineEnds : List Char → List Char
  | [] => []
  | '\r' :: '\n' :: cs => '\n' :: unifyLineEnds cs
  | c :: cs => (if c = '\r' then '\n' else c) :: unifyLineEnds cs

/-- Characters that end a line. -/
def isLineBreak (c : Char) : Bool :=
  let n := c.toNat
  (0x0a ≤ n && n ≤ 0x0d) || (0x1c ≤ n && n ≤ 0x1e) || n == 0x85 || n == 0x2028 || n == 0x2029

/-- The lines of a text, given the start of the current one in reverse. A break
ends a line, a carriage return with a line feed is one break, and a text that
ends with a break has no empty last line. -/
def linesAfter (current : List Char) : List Char → List (List Char)
  | [] => if current.isEmpty then [] else [current.reverse]
  | '\r' :: '\n' :: cs => current.reverse :: linesAfter [] cs
  | c :: cs =>
    if isLineBreak c then current.reverse :: linesAfter [] cs
    else linesAfter (c :: current) cs

/-- The lines of a text. -/
def lines (cs : List Char) : List (List Char) := linesAfter [] cs

end Winnow.Text
