import Winnow.Fault
import Winnow.Text.Blank
import Winnow.Text.Digits
import Winnow.Text.Lowercase

/-!
# Dangerous addresses

An address is dangerous if its scheme runs code or carries a document of its
own. Clients pass over blanks and control characters inside a scheme, and
characters may be hidden behind numeric references, so both are undone before
the scheme is looked at.
-/

namespace Winnow.Url

/-- Attributes whose values are fetched or followed. -/
def addressAttributes : List String := [
  "href", "src", "xlink:href", "action", "formaction", "poster", "srcset", "data", "codebase",
  "archive", "cite", "longdesc", "usemap", "background", "profile", "icon", "manifest"]

/-- Does an attribute of this name hold an address? -/
def isAddressAttribute (name : String) : Bool := addressAttributes.contains name

/-- Schemes that run code or carry a document. -/
def dangerousSchemes : List (List Char) := ["javascript:".toList, "data:".toList]

/-- A numeric reference at the start of a text, after its ampersand: the digits
of the number, its base, and what follows. A semicolon belongs to the reference. -/
def reference? : List Char → Option (Nat × List Nat × List Char)
  | '#' :: cs =>
    let (base, digits, rest) := match cs with
      | c :: ds =>
        if (c = 'x' || c = 'X') && (ds.takeWhile Text.isHexDigit).length != 0 then
          (16, (ds.takeWhile Text.isHexDigit).filterMap Text.hexDigit?,
            ds.dropWhile Text.isHexDigit)
        else
          (10, (cs.takeWhile Text.isAsciiDigit).filterMap Text.asciiDigit?,
            cs.dropWhile Text.isAsciiDigit)
      | [] => (10, [], [])
    if digits.isEmpty then none
    else match rest with
      | ';' :: rest => some (base, digits, rest)
      | rest => some (base, digits, rest)
  | _ => none

/-- The character with a code point; surrogates, which are no characters, are
shown as the replacement character. -/
def referenced (n : Nat) : Char :=
  if h : n.isValidChar then ⟨n.toUInt32, by
    have : n < UInt32.size := by
      rcases h with h | h <;> simp only [UInt32.size] <;> omega
    simpa [Nat.toUInt32, UInt32.isValidChar, UInt32.toNat_ofNat, Nat.mod_eq_of_lt this] using h⟩
  else Char.ofNat 0xfffd

/-- The texts that a reference and the rest of the input stand for: the number's
character, or the reference as written when the number is beyond the last code point. -/
def resolve (source : List Char) (base : Nat) (digits : List Nat) (rest : List Char) :
    Except Fault (List Char) :=
  if base = 10 ∧ Text.maxDecimalDigits < digits.length then .error .numeralTooLong
  else
    let n := Text.ofDigits base digits
    if 0x10ffff < n then .ok (source.take (source.length - rest.length))
    else .ok [referenced n]

/-- Replace the numeric references of a text, reading at most `fuel` characters and references. -/
def decodeFrom : Nat → List Char → Except Fault (List Char)
  | 0, _ => .ok []
  | _, [] => .ok []
  | fuel + 1, c :: cs =>
    match (if c = '&' then reference? cs else none) with
    | some (base, digits, rest) => do
      let here ← resolve (c :: cs) base digits rest
      let after ← decodeFrom fuel rest
      return here ++ after
    | none => do
      let after ← decodeFrom fuel cs
      return c :: after

/-- Replace the numeric references of a text by their characters. -/
def decode (value : List Char) : Except Fault (List Char) := decodeFrom value.length value

/-- Characters that clients pass over inside a scheme: controls, blanks and the byte order mark. -/
def isIgnorable (c : Char) : Bool :=
  c.toNat ≤ 0x1f || c.toNat == 0x7f || c.toNat == 0xfeff || Text.isBlank c

/-- The address as clients see it: references resolved, ignorable characters
dropped, in lower case. -/
def normalize (value : List Char) : Except Fault (List Char) := do
  let decoded ← decode value
  return Text.lowerChars (decoded.filter (!isIgnorable ·))

/-- Does the address have a dangerous scheme? -/
def isDangerous (value : List Char) : Except Fault Bool := do
  let normalized ← normalize value
  return dangerousSchemes.any fun scheme => scheme.isPrefixOf normalized

/-- Is the address of one of the candidates dangerous? -/
def anyCandidateDangerous : List (List Char) → Except Fault Bool
  | [] => .ok false
  | candidate :: rest =>
    match Text.words candidate with
    | [] => anyCandidateDangerous rest
    | address :: _ => do
      if ← isDangerous address then return true
      anyCandidateDangerous rest

/-- A list of image candidates is dangerous if the address of one of them is, or
if the whole reads as a dangerous address. -/
def isDangerousCandidates (value : List Char) : Except Fault Bool := do
  if ← isDangerous value then return true
  anyCandidateDangerous (Text.splitAt ',' value)

/-- Is the value of an attribute dangerous as an address? -/
def isDangerousValue (name value : String) : Except Fault Bool :=
  if name = "srcset" then isDangerousCandidates value.toList
  else isDangerous value.toList

end Winnow.Url
