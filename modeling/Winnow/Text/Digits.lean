import Winnow.Text.Blank

/-!
# Digits

Decimal digits of every script, and reading an integer from text.
-/

namespace Winnow.Text

/-- The zero of each script that writes decimal numbers with ten consecutive digits. -/
def digitZeros : List Nat := [
    0x30, 0x660, 0x6f0, 0x7c0, 0x966, 0x9e6, 0xa66, 0xae6, 0xb66, 0xbe6, 0xc66, 0xce6, 0xd66,
    0xde6, 0xe50, 0xed0, 0xf20, 0x1040, 0x1090, 0x17e0, 0x1810, 0x1946, 0x19d0, 0x1a80, 0x1a90,
    0x1b50, 0x1bb0, 0x1c40, 0x1c50, 0xa620, 0xa8d0, 0xa900, 0xa9d0, 0xa9f0, 0xaa50, 0xabf0,
    0xff10, 0x104a0, 0x10d30, 0x11066, 0x110f0, 0x11136, 0x111d0, 0x112f0, 0x11450, 0x114d0,
    0x11650, 0x116c0, 0x11730, 0x118e0, 0x11950, 0x11c50, 0x11d50, 0x11da0, 0x16a60, 0x16ac0,
    0x16b50, 0x1d7ce, 0x1d7d8, 0x1d7e2, 0x1d7ec, 0x1d7f6, 0x1e140, 0x1e2f0, 0x1e950, 0x1fbf0]

/-- The value of a decimal digit of any script. -/
def digitValue? (c : Char) : Option Nat :=
  (digitZeros.find? fun z => z ≤ c.toNat && c.toNat < z + 10).map (c.toNat - ·)

/-- Digits of any script, with single underscores allowed between two of them. -/
def digitGroups : Bool → List Char → Option (List Nat)
  | afterDigit, [] => if afterDigit then some [] else none
  | afterDigit, c :: cs =>
    match digitValue? c with
    | some d => (digitGroups true cs).map (d :: ·)
    | none => if c = '_' && afterDigit then digitGroups false cs else none

/-- The number written by decimal digits, most significant first. -/
def ofDigits (base : Nat) (digits : List Nat) : Nat :=
  digits.foldl (fun n d => n * base + d) 0

/-- The largest number of digits that a decimal number may be written with. -/
def maxDecimalDigits : Nat := 4300

/-- A blank that may stand around a decimal integer. The control characters that separate
files, groups, records and units may not, though they are blanks everywhere else. -/
def isNumeralBlank (c : Char) : Bool :=
  isBlank c && !(0x1c ≤ c.toNat && c.toNat ≤ 0x1f)

/-- The digits of a decimal integer and its sign, without the blanks around them. -/
def stripNumeral (cs : List Char) : List Char :=
  dropEndWhile isNumeralBlank (cs.dropWhile isNumeralBlank)

/-- Read a decimal integer: blanks around it, one sign, and underscores between
digits are allowed, and it has at most `maxDecimalDigits` digits. -/
def readInt? (s : String) : Option Int :=
  let (negative, digits) := match stripNumeral s.toList with
    | '-' :: cs => (true, cs)
    | '+' :: cs => (false, cs)
    | cs => (false, cs)
  match digitGroups false digits with
  | none => none
  | some ds =>
    if maxDecimalDigits < ds.length then none
    else
      let n : Int := ofDigits 10 ds
      some (if negative then -n else n)

/-- The value of an ASCII decimal digit. -/
def asciiDigit? (c : Char) : Option Nat :=
  if '0' ≤ c ∧ c ≤ '9' then some (c.toNat - '0'.toNat) else none

/-- The value of an ASCII hexadecimal digit. -/
def hexDigit? (c : Char) : Option Nat :=
  if '0' ≤ c ∧ c ≤ '9' then some (c.toNat - '0'.toNat)
  else if 'a' ≤ c ∧ c ≤ 'f' then some (c.toNat - 'a'.toNat + 10)
  else if 'A' ≤ c ∧ c ≤ 'F' then some (c.toNat - 'A'.toNat + 10)
  else none

/-- Is this one of the digits 0 to 9? -/
def isAsciiDigit (c : Char) : Bool := (asciiDigit? c).isSome

/-- Is this a hexadecimal digit? -/
def isHexDigit (c : Char) : Bool := (hexDigit? c).isSome

/-- Is this one of the letters a to z, in either case? -/
def isAsciiLetter (c : Char) : Bool := ('a' ≤ c && c ≤ 'z') || ('A' ≤ c && c ≤ 'Z')

/-- Upper-case hexadecimal digits of a number, without leading zeros. -/
def hexText (n : Nat) : List Char := (Nat.toDigits 16 n).map Char.toUpper

/-- Lower-case hexadecimal digits of a number, padded with zeros to a width. -/
def hexPadded (width n : Nat) : List Char :=
  let digits := Nat.toDigits 16 n
  List.replicate (width - digits.length) '0' ++ digits

end Winnow.Text
