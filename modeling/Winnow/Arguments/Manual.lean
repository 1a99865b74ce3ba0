import Winnow.Text.Blank

/-!
# Manuals

A manual lists the options of a program and the operand that it takes, and says
what each of them is for. Usage and help texts are laid out from it in 78
columns.
-/

namespace Winnow

/-- What an option does. -/
inductive OptionKind where
  /-- It shows the help text. -/
  | help
  | switch
  /-- It takes a text, shown by a placeholder. -/
  | text (placeholder : String)
  /-- It takes an integer, shown by a placeholder. -/
  | integer (placeholder : String)
  deriving DecidableEq, Repr

/-- The placeholder of what an option takes. -/
def OptionKind.placeholder? : OptionKind → Option String
  | help => none
  | switch => none
  | text placeholder => some placeholder
  | integer placeholder => some placeholder

/-- An option of a program. -/
structure OptionEntry where
  /-- The spellings, with their hyphens. -/
  names : List String
  kind : OptionKind
  purpose : String
  deriving DecidableEq, Repr

/-- An operand that may be left out. -/
structure OperandEntry where
  name : String
  purpose : String
  deriving DecidableEq, Repr

/-- What a program can be called with. -/
structure Manual where
  program : String
  summary : String
  operand : Option OperandEntry := none
  options : List OptionEntry
  deriving DecidableEq, Repr

namespace OptionEntry

/-- The option that shows the help text. -/
def forHelp : OptionEntry where
  names := ["-h", "--help"]
  kind := .help
  purpose := "show this help message and exit"

/-- Does the option take a value? -/
def takesValue (entry : OptionEntry) : Bool := entry.kind.placeholder?.isSome

/-- A spelling with the placeholder of the value. -/
def spelled (entry : OptionEntry) (name : String) : String :=
  match entry.kind.placeholder? with
  | some placeholder => name ++ " " ++ placeholder
  | none => name

/-- All spellings with placeholders. -/
def invocation (entry : OptionEntry) : String :=
  ", ".intercalate (entry.names.map entry.spelled)

/-- All spellings, as error messages give them. -/
def title (entry : OptionEntry) : String := "/".intercalate entry.names

end OptionEntry

/-! ## Layout -/

namespace Layout

/-- The columns that are filled. -/
def width : Nat := 78

/-- The column where explanations start. -/
def column : Nat := 24

/-- So many blanks. -/
def blanks (n : Nat) : String := String.ofList (List.replicate n ' ')

/-- Put words into lines of at most `limit` characters, given the line begun so far
and its length. A word that is too long has a line of its own. -/
def fillFrom (limit : Nat) (line : List String) (length : Nat) : List String → List (List String)
  | [] => if line.isEmpty then [] else [line.reverse]
  | word :: words =>
    if limit < length + 1 + word.length && !line.isEmpty then
      line.reverse :: fillFrom limit [word] word.length words
    else
      let length := if line.isEmpty then length + word.length else length + 1 + word.length
      fillFrom limit (word :: line) length words

/-- A text in lines of at most `limit` characters. -/
def fill (limit : Nat) (text : String) : List String :=
  (fillFrom limit [] 0 ((Text.words text.toList).map String.ofList)).map (" ".intercalate ·)

/-- The lines of an entry: what is explained, and its explanation in a column. -/
def entryLines (head explanation : String) : List String :=
  let lines := fill (width - column) explanation
  if head.length + 4 ≤ column then
    match lines with
    | [] => ["  " ++ head]
    | line :: more =>
      ("  " ++ head ++ blanks (column - 2 - head.length) ++ line) ::
        more.map (blanks column ++ ·)
  else ("  " ++ head) :: lines.map (blanks column ++ ·)

end Layout

namespace Manual

open Layout

/-- The options with their spellings, in order. -/
def spellings (manual : Manual) : List (String × OptionEntry) :=
  manual.options.flatMap fun entry => entry.names.map fun name => (name, entry)

/-- The option with a spelling. -/
def find? (manual : Manual) (name : String) : Option OptionEntry :=
  (manual.spellings.find? (·.1 == name)).map (·.2)

/-- The parts of the usage text that show options. -/
def usageParts (manual : Manual) : List String :=
  manual.options.map fun entry => "[" ++ entry.spelled (entry.names.headD "") ++ "]"

/-- The usage text. The operand stands on a line of its own. -/
def usage (manual : Manual) : String :=
  let start := "usage: " ++ manual.program
  let indent := blanks (start.length + 1)
  let lines := (fillFrom (width - indent.length) [] 0 manual.usageParts).map (" ".intercalate ·)
  let operand := manual.operand.toList.map fun entry => "[" ++ entry.name ++ "]"
  start ++ " " ++ ("\n" ++ indent).intercalate (lines ++ operand) ++ "\n"

/-- The help text. -/
def help (manual : Manual) : String :=
  let operands := manual.operand.toList.flatMap fun entry =>
    "" :: "positional arguments:" :: entryLines entry.name entry.purpose
  let options := "" :: "options:" ::
    manual.options.flatMap fun entry => entryLines entry.invocation entry.purpose
  manual.usage ++ "\n" ++
    String.join ((fill width manual.summary ++ operands ++ options).map (· ++ "\n"))

/-- What is reported of a bad call. -/
def report (manual : Manual) (message : String) : String :=
  manual.usage ++ manual.program ++ ": error: " ++ message ++ "\n"

end Manual

end Winnow
