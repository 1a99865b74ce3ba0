import Winnow.Text.Blank
import Winnow.Text.Lines

/-!
# Rule files

A rule file has one rule a line. Blank lines and lines that start with a number
sign are passed over.
-/

namespace Winnow.RuleFile

/-- The rule of a line, if it has one. -/
def ruleOf? (line : List Char) : Option (List Char) :=
  match Text.strip line with
  | [] => none
  | '#' :: _ => none
  | rule => some rule

/-- The rules of a file. -/
def rules (content : List Char) : List (List Char) :=
  (Text.lines (Text.unifyLineEnds content)).filterMap ruleOf?

/-- The rules of the text of a file. -/
def read (content : String) : List String := (rules content.toList).map String.ofList

end Winnow.RuleFile
