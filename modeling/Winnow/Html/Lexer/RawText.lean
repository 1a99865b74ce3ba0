import Winnow.Html.Token
import Winnow.Text.Lowercase

/-!
# Reading raw text

Inside some elements only their own end tag is markup. Script text has a rule
of its own: after a comment opening, a nested script start tag hides the next
end tag.
-/

namespace Winnow.Html

/-- What follows an opening bracket when the end tag named `name` stands there:
the input after the name, which starts with a space, a slash or a bracket. -/
def endTagAhead? (name : String) : List Char → Option (List Char)
  | '/' :: cs =>
    let letters := cs.takeWhile Text.isAsciiLetter
    match cs.dropWhile Text.isAsciiLetter with
    | c :: rest =>
      if (isSpace c || c = '/' || c = '>') && !letters.isEmpty &&
          String.ofList (letters.map Text.asciiLowerChar) == Text.lower name then
        some (c :: rest)
      else none
    | [] => none
  | _ => none

/-- The letters of an end tag that is not the expected one, with the slash. -/
def slashAndLetters : List Char → List Char
  | '/' :: cs => '/' :: cs.takeWhile Text.isAsciiLetter
  | _ => []

/-! ## Script text -/

/-- A place in script text. -/
inductive ScriptPlace where
  | plain
  /-- After an opening bracket and before its exclamation mark. -/
  | opening
  /-- After `<!` with the given number of dashes. -/
  | escapeStart (dashes : Nat)
  /-- After a comment opening, with the given number of dashes just read. -/
  | escaped (dashes : Nat)
  /-- In the letters after an opening bracket inside a comment opening. -/
  | doubleStart (letters : List Char)
  /-- Inside a nested script element, with the given number of dashes just read. -/
  | double (dashes : Nat)
  /-- After an opening bracket inside a nested script element. -/
  | doubleOpening
  /-- In the letters of an end tag inside a nested script element. -/
  | doubleEnd (letters : List Char)
  deriving DecidableEq, Repr

namespace ScriptPlace

/-- Do the letters, given in reverse, spell the name of the script element? -/
def spellScript (letters : List Char) : Bool :=
  letters.reverse.map Text.asciiLowerChar == "script".toList

/-- Does a character end the name of a nested tag? -/
def endsName (c : Char) : Bool := isSpace c || c = '/' || c = '>'

/-- The place after a character of plain script text. -/
def afterPlain (c : Char) (next : Option Char) : ScriptPlace :=
  if c = '<' && next == some '!' then .opening else .plain

/-- The place after a character inside a comment opening. -/
def afterEscaped (dashes : Nat) (c : Char) (next : Option Char) : ScriptPlace :=
  if c = '-' then .escaped (dashes + 1)
  else if c = '<' then
    if next.any Text.isAsciiLetter then .doubleStart [] else .escaped 0
  else if c = '>' && decide (2 ≤ dashes) then .plain
  else .escaped 0

/-- The place after a character inside a nested script element. -/
def afterDouble (dashes : Nat) (c : Char) : ScriptPlace :=
  if c = '-' then .double (dashes + 1)
  else if c = '<' then .doubleOpening
  else if c = '>' && decide (2 ≤ dashes) then .plain
  else .double 0

/-- The place after a character. -/
def after (place : ScriptPlace) (c : Char) (next : Option Char) : ScriptPlace :=
  match place with
  | plain => afterPlain c next
  | opening => .escapeStart 0
  | escapeStart dashes =>
    if c = '-' then if dashes = 0 then .escapeStart 1 else .escaped 2
    else afterPlain c next
  | escaped dashes => afterEscaped dashes c next
  | doubleStart letters =>
    if endsName c then if spellScript letters then .double 0 else .escaped 0
    else if Text.isAsciiLetter c then .doubleStart (c :: letters)
    else afterEscaped 0 c next
  | double dashes => afterDouble dashes c
  | doubleOpening => if c = '/' then .doubleEnd [] else afterDouble 0 c
  | doubleEnd letters =>
    if endsName c then if spellScript letters then .escaped 0 else .double 0
    else if Text.isAsciiLetter c then .doubleEnd (c :: letters)
    else afterDouble 0 c

/-- May the end tag of the script stand here? -/
def mayEnd : ScriptPlace → Bool
  | plain => true
  | escapeStart _ => true
  | escaped _ => true
  | doubleStart _ => true
  | _ => false

end ScriptPlace

/-- Split script text before the end tag named `name`. -/
def splitScript (name : String) (place : ScriptPlace) : List Char → List Char × List Char
  | [] => ([], [])
  | c :: cs =>
    if c = '<' && place.mayEnd && (endTagAhead? name cs).isSome then ([], c :: cs)
    else
      let (text, rest) := splitScript name (place.after c cs.head?) cs
      (replaceNull c :: text, rest)

end Winnow.Html
