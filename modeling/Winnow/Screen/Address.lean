import Winnow.Screen.Entity
import Winnow.Text.Lowercase

/-!
# Screened addresses

An address passes if it has no scheme or one of the safe ones. The scheme is
looked for in a plain form of the address: references resolved, blanks,
controls, backticks and all beyond ASCII dropped, in lower case. An address whose
host cannot be read does not pass.
-/

namespace Winnow.Screen.Address

/-- The schemes that pass. -/
def safeSchemes : List String := [
  "http", "https", "mailto", "tel", "callto", "sms", "cid", "xmpp", "ftp", "ftps", "matrix"]

/-- Characters without a part in an address: blanks, controls, backticks, and all
beyond ASCII. -/
def isIgnored (c : Char) : Bool := c.toNat ≤ 0x20 || 0x7f ≤ c.toNat || c = '\x60'

/-- The plain form of an address. -/
def plain (value : List Char) : Except Fault (List Char) := do
  return ((← Entity.expand value).filter (!isIgnored ·)).map Text.asciiLowerChar

/-- A character of a scheme. -/
def isSchemeChar (c : Char) : Bool :=
  Text.isAsciiLetter c || Text.isAsciiDigit c || c = '+' || c = '-' || c = '.'

/-- The scheme of an address in plain form and what follows it. Before digits alone
stands a host and not a scheme. -/
def scheme? (address : List Char) : Option (List Char × List Char) :=
  let scheme := address.takeWhile (· != ':')
  match address.dropWhile (· != ':') with
  | [] => none
  | _ :: rest =>
    if scheme.isEmpty || !scheme.all isSchemeChar then none
    else if !rest.isEmpty && rest.all Text.isAsciiDigit then none
    else some (scheme, rest)

/-- The host part at the start of an address without its scheme. -/
def host : List Char → List Char
  | '/' :: '/' :: cs => cs.takeWhile fun c => c != '/' && c != '?' && c != '#'
  | _ => []

/-- Can a host be read? Its square brackets come in both kinds or not at all. -/
def isReadable (host : List Char) : Bool := host.contains '[' == host.contains ']'

/-- Does the value of an attribute pass as an address? -/
def passes (value : List Char) : Except Fault Bool := do
  let address ← plain value
  match scheme? address with
  | some (scheme, rest) =>
    return isReadable (host rest) && safeSchemes.contains (String.ofList scheme)
  | none => return isReadable (host address)

end Winnow.Screen.Address
