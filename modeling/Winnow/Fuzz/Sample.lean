import Winnow.Fuzz.Draws
import Winnow.Url

/-!
# Hostile samples

Documents, rule lists and configurations made by chance: misnested elements,
addresses that hide their schemes, styles that load something, and rules that
name all of these.
-/

namespace Winnow.Fuzz

open Gen

/-- Elements that rules name. -/
def ruleTags : List String := [
  "div", "span", "p", "a", "img", "b", "i", "em", "strong", "ul", "ol", "li",
  "h1", "h2", "h3", "blockquote", "pre", "code", "section", "article", "style",
  "script", "svg", "br", "hr"]

/-- Elements that documents hold. -/
def inputTags : List String := ruleTags ++ [
  "iframe", "object", "embed", "form", "input", "button", "textarea", "select",
  "template", "noscript", "math", "table", "td", "title", "meta", "link", "base",
  "video", "audio", "source", "details", "summary", "marquee", "xmp"]

def attributeNames : List String := [
  "id", "class", "style", "href", "src", "srcset", "title", "alt", "action",
  "formaction", "poster", "xlink:href", "background", "data", "target", "rel",
  "onclick", "onload", "onerror", "ONMOUSEOVER", "data-x", "aria-label"]

def properties : List String := [
  "color", "margin", "padding", "background", "background-image", "font-size", "display"]

def selectors : List String := ["*", ".header", "p", "a", "div", "#main", ".a, .b"]

def dangerousAddresses : List String := [
  "javascript:alert(1)",
  "JaVaScRiPt:alert(1)",
  " \tjavascript:alert(1)",
  "java\x00script:alert(1)",
  "java\nscript:alert(1)",
  "&#106;avascript:alert(1)",
  "&#x6A;avascript:alert(1)",
  "&#0000106avascript:alert(1)",
  "data:text/html,<script>alert(1)</script>",
  "DATA:image/svg+xml;base64,AAAA",
  "\x01javascript:alert(1)"]

def safeAddresses : List String := [
  "https://example.com/", "/relative/path", "#anchor", "mailto:a@example.com", "image.png 2x"]

def styleValues : List String := [
  "red", "0", "1px 2px", "url(javascript:alert(1))", "url(\"x.png\")",
  "image-set(url(x.png) 1x)", "calc(1px + 2px)", "expression(alert(1))", "red !important", ""]

def textPieces : List String := [
  "hello", "&amp;", "&lt;script&gt;", "<", ">", "\u00a0", "&nbsp;", "\u200b", "</p>", "<!-- c -->",
  "<![CDATA[x]]>"]

/-- Letters and digits. -/
def alphanumerics : List Char :=
  "abcdefghijklmnopqrstuvwxyzABCDEFGHIJKLMNOPQRSTUVWXYZ0123456789".toList

/-- A word of letters and digits with a length between two bounds. -/
def word (shortest longest : Nat) : Gen String := do
  return String.ofList (← several shortest longest (pick alphanumerics 'a'))

/-- An address of some kind. -/
def address : Gen String := do
  match ← between 0 3 with
  | 0 => pickText dangerousAddresses
  | 1 => pickText safeAddresses
  | 2 => do
    let safe ← pickText safeAddresses
    let dangerous ← pickText dangerousAddresses
    return safe ++ ", " ++ dangerous ++ " 2x"
  | _ => word 0 10

/-- A declaration. -/
def declaration : Gen String := do
  let property ← pickText properties
  let value ← pickText styleValues
  return property ++ ":" ++ value

/-- Declarations with semicolons between them. -/
def declarations : Gen String := do
  return ";".intercalate (← several 0 4 declaration)

/-- A value that suits the name of an attribute. -/
def attributeValue (name : String) : Gen String :=
  let lowered := Text.asciiLower name
  if name = "style" then declarations
  else if Url.isAddressAttribute lowered then address
  else if "on".toList.isPrefixOf lowered.toList then pure "alert(1)"
  else word 0 8

/-- An attribute with its value in double quotes. -/
def attributeText : Gen String := do
  let name ← pickText attributeNames
  let value ← attributeValue name
  return name ++ "=\"" ++ String.ofList (Text.replaceChar '"' "&quot;".toList value.toList) ++ "\""

/-- A rule of a style sheet. -/
def styleRule : Gen String := do
  let selector ← pickText selectors
  return selector ++ "\x7b" ++ (← declarations) ++ "\x7d"

/-- A piece of a style sheet. -/
def sheetPiece : Gen String := do
  match ← between 0 4 with
  | 0 => styleRule
  | 1 => return "@import url(evil.css);"
  | 2 => do return "@media screen\x7b" ++ (← styleRule) ++ "\x7d"
  | 3 => return "/* comment */"
  | _ => return "\x7d\x7d\x7b\x7b"

/-- A style sheet. -/
def styleSheet : Gen String := do
  return String.join (← several 0 4 sheetPiece)

/-- The start tag of an element. One without attributes may be in capitals. -/
def startTag (tag : String) : Gen String := do
  let attributes ← several 0 3 attributeText
  if attributes.isEmpty then
    let start := "<" ++ tag ++ ">"
    return if ← chance 300 then String.ofList (start.toList.map Char.toUpper) else start
  else return "<" ++ tag ++ " " ++ " ".intercalate attributes ++ ">"

/-- An element whose content, if it has any, is made as given. Its end tag may be missing. -/
def elementWith (content : Gen (List String)) : Gen String := do
  let tag ← pickText inputTags
  let start ← startTag tag
  let stop := "</" ++ tag ++ ">"
  if tag = "style" then return start ++ (← styleSheet) ++ stop
  else if tag = "script" then
    return start ++ "alert(" ++ toString (← between 0 9) ++ ")" ++ stop
  else
    let content ← content
    return start ++ String.join content ++ (if ← chance 900 then stop else "")

/-- An element with at most so many levels of elements below it. -/
def element : Nat → Gen String
  | 0 => elementWith (pure [])
  | levels + 1 => elementWith <| several 0 3 do
    if ← chance 400 then pickText textPieces else element levels

/-- A document. It may end in a deep nest of open blocks. -/
def document : Gen String := do
  let parts ← several 1 5 (element 6)
  let start := if ← chance 200 then "<!DOCTYPE html>" else ""
  let nest ← if ← chance 100 then do
      pure (String.join (List.replicate (← between 200 2000) "<div>"))
    else pure ""
  return start ++ String.join parts ++ nest

/-- A rule for an attribute. -/
def attributeRule : Gen String := do
  let tag ← pickText ruleTags
  return tag ++ "|" ++ (← pickText attributeNames)

/-- A rule for a style. -/
def styleProperty : Gen String := do
  let selector ← pickText selectors
  return "style|" ++ selector ++ "|" ++ (← pickText properties)

/-- A rule list. -/
def rules : Gen (List String) := do
  let tags ← several 0 12 (pickText ruleTags)
  let attributes ← several 0 6 attributeRule
  let styles ← several 0 4 styleProperty
  shuffle (tags ++ attributes ++ styles)

/-- The two switches of a configuration. -/
structure Switches where
  allowCommonAttributes : Bool
  allowJavaScript : Bool
  deriving DecidableEq, Repr

/-- A configuration. -/
def switches : Gen Switches := do
  let common ← chance 300
  return { allowCommonAttributes := common, allowJavaScript := ← chance 100 }

end Winnow.Fuzz
