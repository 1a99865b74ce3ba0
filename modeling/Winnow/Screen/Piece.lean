import Winnow.Document.Tree
import Winnow.Html.Entity
import Winnow.Html.Token
import Winnow.Text.Blank

/-!
# Pieces of a fragment

A fragment that has been read is listed piece by piece, in the order in which it
is written again. A fragment has no document type, and nothing in it is beyond
writing, but a stream of markup may have such pieces too.
-/

namespace Winnow.Screen

open Html

/-- An attribute name, with the namespace that it belongs to. -/
structure Key where
  space : Option String
  name : String
  deriving DecidableEq, Repr

/-- Attributes with values in order. -/
abbrev Fields := List (Key × String)

namespace Fields

/-- Put a value under a key, in place if the key is present and last otherwise. -/
def put (key : Key) (value : String) : Fields → Fields
  | [] => [(key, value)]
  | field :: rest =>
    if field.1 = key then (key, value) :: rest else field :: put key value rest

/-- The fields of a list of pairs: first positions, last values. -/
def ofPairs (pairs : List (Key × String)) : Fields :=
  pairs.foldl (fun fields field => put field.1 field.2 fields) []

end Fields

/-- A piece of a stream of markup. -/
inductive Piece where
  | startTag (name : String) (fields : Fields)
  /-- The tag of an element without content and end tag. -/
  | emptyTag (name : String) (fields : Fields)
  | endTag (name : String)
  | text (data : List Char)
  | space (data : List Char)
  /-- A reference by the text between its ampersand and its semicolon. -/
  | reference (name : List Char)
  | comment (data : List Char)
  | doctype (declaration : Doctype)
  /-- What cannot be written, by a message about it. -/
  | unwritable (message : List Char)
  deriving DecidableEq, Repr

/-! ## Listing -/

/-- HTML elements that are listed without content and end tag. -/
def emptyElements : List String := [
  "base", "command", "event-source", "link", "meta", "hr", "br", "img", "embed", "param", "area",
  "col", "input", "source", "track", "wbr"]

/-- The key of an attribute name, whose namespace may be written in front in braces. -/
def Key.ofName (name : String) : Key :=
  match name.toList with
  | '\x7b' :: cs =>
    match cs.dropWhile (· != '\x7d') with
    | _ :: localName =>
      { space := some (String.ofList (cs.takeWhile (· != '\x7d')))
        name := String.ofList localName }
    | [] => { space := none, name := name }
  | _ => { space := none, name := name }

/-- The attributes of an element as fields. -/
def Fields.ofAttributes (attributes : Attributes) : Fields :=
  ofPairs (attributes.map fun entry => (Key.ofName entry.1, entry.2.getD ""))

/-- A piece, unless it is of no length. -/
def Piece.unlessEmpty (piece : List Char → Piece) (data : List Char) : List Piece :=
  if data.isEmpty then [] else [piece data]

/-- The pieces of a text: the white space at its ends is apart. -/
def Piece.ofText (data : List Char) : List Piece :=
  let left := data.takeWhile isSpace
  let rest := data.dropWhile isSpace
  let middle := Text.dropEndWhile isSpace rest
  unlessEmpty .space left ++ unlessEmpty .text middle ++
    unlessEmpty .space (rest.drop middle.length)

mutual

/-- The pieces of a tree. -/
def Piece.ofTree : Tree → List Piece
  | .node label children =>
    if label.isText then ofText label.text.toList
    else if label.tag = "#comment" then [.comment label.text.toList]
    else if !label.isElement then []
    else
      let fields := Fields.ofAttributes label.attributes
      if label.space = .html && emptyElements.contains label.tag then
        [.emptyTag label.tag fields]
      else
        .startTag label.tag fields :: ofTrees children ++ [.endTag label.tag]

/-- The pieces of a list of siblings. -/
def Piece.ofTrees : List Tree → List Piece
  | [] => []
  | tree :: rest => ofTree tree ++ ofTrees rest

end

end Winnow.Screen
