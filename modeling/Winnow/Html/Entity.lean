import Winnow.Fault
import Winnow.Html.Entity.Table
import Winnow.Text.Digits

/-!
# Character references

What an ampersand and the characters after it stand for in a document. A named
reference takes the longest known name; a number stands for its character, with
the code points of the C1 controls read as their Windows counterparts.
-/

namespace Winnow.Html

/-- White space that separates the parts of markup. -/
def isSpace (c : Char) : Bool :=
  c = ' ' || c = '\n' || c = '\t' || c = '\r' || c.toNat = 0x0c

/-- The character shown for what is no character. -/
def replacement : Char := Char.ofNat 0xfffd

/-- The null character. -/
def nullChar : Char := Char.ofNat 0

/-- Show a null character as the replacement character. -/
def replaceNull (c : Char) : Char := if c = nullChar then replacement else c

namespace Entity

/-! ## Names -/

/-- How far the names reach into a text. -/
structure Reach where
  /-- How many characters begin some name. -/
  shared : Nat
  /-- The longest name among them: its length and what it stands for. -/
  whole : Option (Nat × String)
  deriving Repr

/-- Follow the names that agree with the text so far, given the rest of each. -/
def follow (read : Nat) (whole : Option (Nat × String)) (names : List (List Char × String)) :
    List Char → Reach
  | [] => ⟨read, whole⟩
  | c :: cs =>
    let next := names.filterMap fun entry => match entry.1 with
      | d :: rest => if d = c then some (rest, entry.2) else none
      | [] => none
    if next.isEmpty then ⟨read, whole⟩
    else
      let whole := match next.find? (·.1.isEmpty) with
        | some entry => some (read + 1, entry.2)
        | none => whole
      follow (read + 1) whole next cs

/-- How far the names reach into the text after an ampersand. -/
def reach : List Char → Reach
  | [] => ⟨0, none⟩
  | c :: cs => follow 0 none ((entitiesFrom c).map fun entry => (entry.1.toList, entry.2)) (c :: cs)

/-- What a name stands for, if it is known in exactly this spelling. -/
def named? (name : List Char) : Option String :=
  match reach name with
  | ⟨_, some (length, text)⟩ => if length = name.length then some text else none
  | _ => none

/-- Does some name begin with these characters? -/
def beginsName (start : List Char) : Bool := (reach start).shared == start.length

/-! ## Numbers -/

/-- Characters shown for the code points 80 to 9f in a numeric reference. -/
def controlReplacements : List Nat := [
  0x20ac, 0x81, 0x201a, 0x0192, 0x201e, 0x2026, 0x2020, 0x2021, 0x02c6, 0x2030, 0x0160, 0x2039,
  0x0152, 0x8d, 0x017d, 0x8f, 0x90, 0x2018, 0x2019, 0x201c, 0x201d, 0x2022, 0x2013, 0x2014,
  0x02dc, 0x2122, 0x0161, 0x203a, 0x0153, 0x9d, 0x017e, 0x0178]

/-- The character that a numeric reference stands for. -/
def numbered (n : Nat) : Char :=
  if n = 0 ∨ 0x10ffff < n ∨ (0xd800 ≤ n ∧ n ≤ 0xdfff) then replacement
  else if 0x80 ≤ n ∧ n ≤ 0x9f then Char.ofNat (controlReplacements.getD (n - 0x80) n)
  else Char.ofNat n

/-- The text of a numeric reference and how many characters it takes, given its
digits and what stands before and after them. -/
def number (base marker : Nat) (digits rest : List Char) : Except Fault (List Char × Nat) :=
  if base = 10 ∧ Text.maxDecimalDigits < digits.length then .error .numeralTooLong
  else
    let n := Text.ofDigits base (digits.filterMap Text.hexDigit?)
    let semicolon := if rest.head? = some ';' then 1 else 0
    .ok ([numbered n], marker + digits.length + semicolon)

/-! ## References -/

/-- What stands behind an ampersand: the text it is read as, and how many of the
characters after it are taken. `closing` is the quote or bracket that would end
an attribute value. -/
def read (inAttribute : Bool) (closing : Option Char) : List Char →
    Except Fault (List Char × Nat)
  | [] => .ok (['&'], 0)
  | '#' :: 'x' :: cs => hexadecimal 'x' cs
  | '#' :: 'X' :: cs => hexadecimal 'X' cs
  | '#' :: cs =>
    let digits := cs.takeWhile Text.isAsciiDigit
    if digits.isEmpty then .ok (['&', '#'], 1)
    else number 10 1 digits (cs.dropWhile Text.isAsciiDigit)
  | c :: cs =>
    if isSpace c || c = '<' || c = '&' || closing = some c then .ok (['&'], 0)
    else
      let text := c :: cs
      let found := reach text
      let shared := text.take found.shared
      match found.whole with
      | none => .ok ('&' :: shared, found.shared)
      | some (length, meaning) =>
        let next := text[length]?
        let joined := inAttribute && text[length - 1]? != some ';' &&
          next.any fun d => Text.isAsciiLetter d || Text.isAsciiDigit d || d = '='
        if joined then .ok ('&' :: shared, found.shared)
        else .ok (meaning.toList ++ shared.drop length, found.shared)
where
  hexadecimal (marker : Char) (cs : List Char) : Except Fault (List Char × Nat) :=
    let digits := cs.takeWhile Text.isHexDigit
    if digits.isEmpty then .ok (['&', '#', marker], 2)
    else number 16 2 digits (cs.dropWhile Text.isHexDigit)

end Entity

end Winnow.Html
