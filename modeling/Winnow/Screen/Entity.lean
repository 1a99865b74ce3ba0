import Winnow.Html.Entity
import Winnow.Text.Blank

/-!
# Closed references

A fragment is screened with its character references as they are written. Here
a reference counts only if a semicolon closes it, and its name needs only to be
the start of a known one. What follows the ampersand is `part`; `name?` finds
the name in it and `meaning?` what the name stands for.
-/

namespace Winnow.Screen.Entity

open Html

/-- Characters that end the name of a reference. -/
def endsName (c : Char) : Bool :=
  c = '<' || c = '&' || c = '=' || c = ';' || c = ' ' || (0x09 ≤ c.toNat && c.toNat ≤ 0x0d)

/-- The name of a numeric reference, given the marker of its base and what
follows it. One character that is no digit may stand before the semicolon. -/
def number? (marker : List Char) (isDigit : Char → Bool) (cs : List Char) :
    Option (List Char) :=
  let name := marker ++ cs.takeWhile isDigit
  match cs.dropWhile isDigit with
  | ';' :: _ => some name
  | c :: ';' :: _ => if endsName c then none else some name
  | _ => none

/-- The name of the reference at the start of a part. -/
def name? : List Char → Option (List Char)
  | '#' :: 'x' :: cs => number? ['#', 'x'] Text.isHexDigit cs
  | '#' :: 'X' :: cs => number? ['#', 'X'] Text.isHexDigit cs
  | '#' :: cs => number? ['#'] Text.isAsciiDigit cs
  | cs =>
    let name := cs.takeWhile (!endsName ·)
    if name.isEmpty || !Entity.beginsName name ||
        (cs.dropWhile (!endsName ·)).head? != some ';' then none
    else some name

/-- What is left of a part after a reference with the given name. -/
def after (name part : List Char) : List Char := part.drop (name.length + 1)

/-- What the digits of a numeric reference stand for. A surrogate, which is no
character, stands for the null character; neither has a part in an address. -/
def ofDigits? (base : Nat) (digits : List Char) : Except Fault (Option (List Char)) :=
  if base = 10 ∧ Text.maxDecimalDigits < digits.length then .error .numeralTooLong
  else
    let n := Text.ofDigits base (digits.filterMap Text.hexDigit?)
    .ok (if n = 0 ∨ 0x10ffff < n then none else some [Char.ofNat n])

/-- What a name stands for, if it stands for anything without its semicolon. -/
def meaning? : List Char → Except Fault (Option (List Char))
  | '#' :: 'x' :: digits => ofDigits? 16 digits
  | '#' :: 'X' :: digits => ofDigits? 16 digits
  | '#' :: digits => ofDigits? 10 digits
  | name => .ok ((Entity.named? name).map String.toList)

/-- Replace the references with a meaning at the starts of parts. -/
def expandParts : List (List Char) → Except Fault (List Char)
  | [] => .ok []
  | part :: rest => do
    let meaning ← match name? part with
      | some name => do
        let meaning ← meaning? name
        pure (meaning.map (· ++ after name part))
      | none => pure none
    return meaning.getD ('&' :: part) ++ (← expandParts rest)

/-- Replace the references with a meaning. -/
def expand (cs : List Char) : Except Fault (List Char) :=
  match Text.splitAt '&' cs with
  | [] => .ok []
  | start :: parts => do return start ++ (← expandParts parts)

/-- Write an ampersand for every one written as a reference. -/
def bareAmpersands : List Char → List Char
  | [] => []
  | '&' :: 'a' :: 'm' :: 'p' :: ';' :: cs => '&' :: bareAmpersands cs
  | c :: cs => c :: bareAmpersands cs

/-- A reference as it is written. -/
def write (name : List Char) : List Char := '&' :: name ++ [';']

/-- Write the ampersands before parts as references, except those of references with a meaning. -/
def escapeParts : List (List Char) → Except Fault (List Char)
  | [] => .ok []
  | part :: rest => do
    let reference ← match name? part with
      | some name => do
        let meaning ← meaning? name
        pure (meaning.map fun _ => write name ++ after name part)
      | none => pure none
    return reference.getD ("&amp;".toList ++ part) ++ (← escapeParts rest)

/-- Write every ampersand once as a reference, unless a reference with a meaning starts there. -/
def escapeBare (cs : List Char) : Except Fault (List Char) :=
  match Text.splitAt '&' (bareAmpersands cs) with
  | [] => .ok []
  | start :: parts => do return start ++ (← escapeParts parts)

end Winnow.Screen.Entity
