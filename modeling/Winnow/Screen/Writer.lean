import Winnow.Screen.Entity
import Winnow.Screen.Piece

/-!
# Writing pieces

Pieces are written as a list of strings, from the opening bracket of a tag to
its closing one. In the values of attributes an ampersand stands for itself if
a reference with a meaning starts there, and is written as a reference
otherwise; this is decided string by string, with a note of being inside a tag
and after an equals sign.
-/

namespace Winnow.Screen

/-- Attributes that are written without their values, by element; those of every
element stand under the empty name. -/
def flagAttributes : Assoc (List String) := [
  ("", ["irrelevant", "itemscope"]),
  ("style", ["scoped"]),
  ("img", ["ismap"]),
  ("audio", ["autoplay", "controls"]),
  ("video", ["autoplay", "controls"]),
  ("script", ["defer", "async"]),
  ("details", ["open"]),
  ("datagrid", ["multiple", "disabled"]),
  ("command", ["hidden", "disabled", "checked", "default"]),
  ("hr", ["noshade"]),
  ("menu", ["autosubmit"]),
  ("fieldset", ["disabled", "readonly"]),
  ("option", ["disabled", "readonly", "selected"]),
  ("optgroup", ["disabled", "readonly"]),
  ("button", ["disabled", "autofocus"]),
  ("input", ["disabled", "readonly", "required", "autofocus", "checked", "ismap"]),
  ("select", ["disabled", "readonly", "autofocus", "multiple"]),
  ("output", ["disabled", "readonly"]),
  ("iframe", ["seamless"])]

/-- Is an attribute of an element written without its value? -/
def isFlag (tag name : String) : Bool :=
  ((flagAttributes.find? tag).getD []).contains name ||
    ((flagAttributes.find? "").getD []).contains name

/-- How a character of text is written. -/
def escapeChar (c : Char) : List Char :=
  if c = '&' then "&amp;".toList
  else if c = '<' then "&lt;".toList
  else if c = '>' then "&gt;".toList
  else [c]

/-- A value with every ampersand and opening bracket written as a reference. -/
def escapeField (value : List Char) : List Char :=
  value.flatMap fun c =>
    if c = '&' then "&amp;".toList else if c = '<' then "&lt;".toList else [c]

/-- The strings of a value: its quotes and what stands between them. Single quotes are
used for a value with double ones and no single ones. -/
def valueStrings (value : List Char) : List (List Char) :=
  let value := escapeField value
  if value.contains '"' && !value.contains '\'' then [['\''], value, ['\'']]
  else [['"'], Text.replaceChar '"' "&quot;".toList value, ['"']]

/-- The strings of a field. -/
def fieldStrings (tag : String) (field : Key × String) : List (List Char) :=
  [' '] :: field.1.name.toList ::
    if isFlag tag field.1.name then [] else ['='] :: valueStrings field.2.toList

/-- The strings of a start tag. -/
def tagStrings (name : String) (fields : Fields) : List (List Char) :=
  ('<' :: name.toList) :: fields.flatMap (fieldStrings name) ++ [['>']]

/-- A document type as text. A system identifier is in double quotes unless it has one. -/
def doctypeText (declaration : Html.Doctype) : List Char :=
  let publicId := (declaration.publicId.getD "").toList
  let systemId := (declaration.systemId.getD "").toList
  let quote := if systemId.contains '"' then '\'' else '"'
  let identified :=
    if publicId.isEmpty then if systemId.isEmpty then [] else " SYSTEM".toList
    else " PUBLIC \"".toList ++ publicId ++ ['"']
  "<!DOCTYPE ".toList ++ declaration.name.toList ++ identified ++
    (if systemId.isEmpty then [] else ' ' :: quote :: systemId ++ [quote]) ++ ['>']

namespace Piece

/-- The strings of a piece. -/
def strings : Piece → List (List Char)
  | .startTag name fields => tagStrings name fields
  | .emptyTag name fields => tagStrings name fields
  | .endTag name => ["</".toList ++ name.toList ++ ['>']]
  | .text data => [data.flatMap escapeChar]
  | .space data => [data]
  | .reference name => [Entity.write name]
  | .comment data => ["<!--".toList ++ data ++ "-->".toList]
  | .doctype declaration => [doctypeText declaration]
  | .unwritable _ => []

end Piece

/-- Join strings. Inside a tag, the first string after an equals sign that is no double
quote has its ampersands written anew. A tag starts with an opening bracket and ends
with a closing one that is a string of its own. -/
def joinStrings (inTag afterEquals : Bool) : List (List Char) → Except Fault (List Char)
  | [] => .ok []
  | string :: rest =>
    if inTag then
      if string = ['>'] then do return string ++ (← joinStrings false afterEquals rest)
      else if afterEquals then
        if string = ['"'] then do return string ++ (← joinStrings true true rest)
        else do return (← Entity.escapeBare string) ++ (← joinStrings true false rest)
      else do return string ++ (← joinStrings true (string = ['=']) rest)
    else do return string ++ (← joinStrings (string.head? = some '<') afterEquals rest)

/-- The text of pieces. -/
def writePieces (pieces : List Piece) : Except Fault (List Char) :=
  joinStrings false false (pieces.flatMap Piece.strings)

end Winnow.Screen
