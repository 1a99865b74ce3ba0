/-!
# Blank characters

The characters that separate words and that may surround a rule, a selector or
a declaration without changing its meaning. Text is scanned as a list of
characters; `strip` removes blank ends and `words` splits at blank runs.
-/

namespace Winnow.Text

/-- A blank is a Unicode space, a line or paragraph separator, or one of the
control characters that separate lines, fields and records. -/
def isBlank (c : Char) : Bool :=
  let n := c.toNat
  (0x09 ≤ n && n ≤ 0x0d) || (0x1c ≤ n && n ≤ 0x20) || n == 0x85 || n == 0xa0 || n == 0x1680 ||
    (0x2000 ≤ n && n ≤ 0x200a) || n == 0x2028 || n == 0x2029 || n == 0x202f || n == 0x205f ||
    n == 0x3000

/-- Drop the longest suffix whose characters all satisfy `p`. -/
def dropEndWhile (p : Char → Bool) (cs : List Char) : List Char :=
  (cs.reverse.dropWhile p).reverse

/-- Remove the blanks at both ends. -/
def strip (cs : List Char) : List Char :=
  dropEndWhile isBlank (cs.dropWhile isBlank)

/-- Split at every occurrence of a separator; a text without it is one segment. -/
def splitAt (sep : Char) : List Char → List (List Char)
  | [] => [[]]
  | c :: cs =>
    if c = sep then [] :: splitAt sep cs
    else match splitAt sep cs with
      | [] => [[c]]
      | segment :: rest => (c :: segment) :: rest

/-- Join segments with a separator between neighbours. -/
def joinWith (sep : List Char) : List (List Char) → List Char
  | [] => []
  | [segment] => segment
  | segment :: rest => segment ++ sep ++ joinWith sep rest

/-- The maximal blank-free runs, in order. -/
def words : List Char → List (List Char)
  | [] => []
  | c :: cs =>
    if isBlank c then words cs
    else match cs with
      | [] => [[c]]
      | d :: _ =>
        if isBlank d then [c] :: words cs
        else match words cs with
          | [] => [[c]]
          | word :: rest => (c :: word) :: rest

/-- Does the text begin with the given characters? -/
def startsWith (start text : List Char) : Bool := start.isPrefixOf text

/-- Replace every occurrence of one character by a text. -/
def replaceChar (old : Char) (new : List Char) (cs : List Char) : List Char :=
  cs.flatMap fun c => if c = old then new else [c]

/-! ## The same operations on strings -/

/-- `strip` on strings. -/
def stripString (s : String) : String := String.ofList (strip s.toList)

end Winnow.Text
