import Winnow.Css.Node
import Winnow.Text.Digits

/-!
# Names in style sheets

Names consist of letters, digits, hyphens, underscores and everything beyond
ASCII; any other character is written with an escape. Reading resolves the
escapes, and writing puts them back where a name needs them.
-/

namespace Winnow.Css

/-- What stands for characters that cannot be shown. -/
def replacement : Char := Char.ofNat 0xfffd

/-- A space, a line feed or a tab. -/
def isSpace (c : Char) : Bool := c = ' ' || c = '\n' || c = '\t'

/-- A character that a name may start with. -/
def isNameStart (c : Char) : Bool := Text.isAsciiLetter c || c = '_' || 0x7f < c.toNat

/-- A character of a name. -/
def isNameChar (c : Char) : Bool := isNameStart c || Text.isAsciiDigit c || c = '-'

/-- Do characters that follow a backslash make an escape with it? -/
def isEscape : List Char → Bool
  | '\n' :: _ => false
  | _ => true

/-- Does an identifier start here? -/
def startsName : List Char → Bool
  | '-' :: '\\' :: cs => isEscape cs
  | '-' :: c :: _ => isNameStart c || c = '-'
  | '\\' :: cs => isEscape cs
  | c :: _ => isNameStart c
  | [] => false

/-! ## Reading -/

/-- The character with a number; numbers that have none are replaced. -/
def charOfNumber (n : Nat) : Char :=
  if n = 0 || 0x10ffff < n || (0xd800 ≤ n && n < 0xe000) then replacement else Char.ofNat n

/-- The character that an escape stands for, and how many of the characters
after the backslash belong to it: up to six hexadecimal digits and a space, or
one other character. -/
def readEscape (cs : List Char) : Char × Nat :=
  let digits := (cs.take 6).takeWhile Text.isHexDigit
  if digits.isEmpty then
    match cs with
    | c :: _ => (c, 1)
    | [] => (replacement, 0)
  else
    let n := Text.ofDigits 16 (digits.filterMap Text.hexDigit?)
    let space := match cs.drop digits.length with
      | c :: _ => isSpace c
      | [] => false
    (charOfNumber n, digits.length + if space then 1 else 0)

/-- Read a name. The first `taken` characters belong to what has been read
already. Gives the name and the characters after it. -/
def readName (taken : Nat) : List Char → List Char × List Char
  | [] => ([], [])
  | c :: cs =>
    match taken with
    | taken + 1 => readName taken cs
    | 0 =>
      if isNameChar c then
        let (name, rest) := readName 0 cs
        (c :: name, rest)
      else if c = '\\' && isEscape cs then
        let (d, length) := readEscape cs
        let (name, rest) := readName length cs
        (d :: name, rest)
      else ([], c :: cs)

/-! ## Writing -/

/-- How a control character that ends lines is written. -/
def lineEscape? (c : Char) : Option (List Char) :=
  if c = '\n' then some "\\A ".toList
  else if c = '\r' then some "\\D ".toList
  else if c.toNat = 0x0c then some "\\C ".toList
  else none

/-- A character inside a name. -/
def writeNameChar (c : Char) : List Char :=
  if isNameChar c then [c] else (lineEscape? c).getD ['\\', c]

/-- A name that need not be an identifier. -/
def writeName (name : List Char) : List Char := name.flatMap writeNameChar

/-- The first character of an identifier. -/
def writeFirst (c : Char) : List Char :=
  if isNameStart c then [c]
  else match lineEscape? c with
    | some text => text
    | none => if Text.isHexDigit c then '\\' :: Text.hexText c.toNat ++ [' '] else ['\\', c]

/-- An identifier whose first character may not be a hyphen. -/
def writePlainIdent : List Char → List Char
  | [] => []
  | c :: cs => writeFirst c ++ writeName cs

/-- An identifier. -/
def writeIdent : List Char → List Char
  | ['-'] => ['\\', '-']
  | '-' :: '-' :: cs => '-' :: '-' :: writeName cs
  | '-' :: cs => '-' :: writePlainIdent cs
  | cs => writePlainIdent cs

/-- A character inside a quoted string. -/
def writeQuotedChar (c : Char) : List Char :=
  if c = '"' || c = '\\' then ['\\', c] else (lineEscape? c).getD [c]

/-- The inside of a quoted string. -/
def writeQuoted (text : List Char) : List Char := text.flatMap writeQuotedChar

/-- A character inside an address without quotes. -/
def writeUrlChar (c : Char) : List Char :=
  if c = '\'' || c = '"' || c = '\\' || c = ' ' || c = '(' || c = ')' then ['\\', c]
  else if c = '\t' then "\\9 ".toList
  else (lineEscape? c).getD [c]

/-- The inside of an address without quotes. -/
def writeUrl (text : List Char) : List Char := text.flatMap writeUrlChar

end Winnow.Css
