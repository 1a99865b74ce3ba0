import Winnow.Assoc
import Winnow.Html.Entity

/-!
# Tokens

The units into which a document is cut. Runs of white space at the start of a
stretch of text are tokens of their own, because they count for less in some
places. Problems are tokens too: a reader may pass over them, or use them to
tell a badly written tag from text.
-/

namespace Winnow.Html

/-- A badly written place. Those that no reader tells apart are `other`. -/
inductive Problem where
  /-- A quote or an opening bracket in the name of an attribute. -/
  | quoteInAttributeName
  /-- The start of an end tag without a name. -/
  | unnamedEndTag
  /-- The input ends in the name of a tag. -/
  | endInTagName
  /-- The input ends in an attribute outside quotes. -/
  | endInAttribute
  /-- A second attribute of the same name. -/
  | repeatedAttribute
  | other
  deriving DecidableEq, Repr

/-- A start tag. Of attributes with the same name the first counts. -/
structure Tag where
  name : String
  attributes : Assoc String := []
  selfClosing : Bool := false
  deriving DecidableEq, Repr

/-- A document type declaration. -/
structure Doctype where
  name : String := ""
  publicId : Option String := none
  systemId : Option String := none
  /-- Was the declaration complete and well formed? -/
  correct : Bool := true
  deriving DecidableEq, Repr

/-- A unit of a document. -/
inductive Token where
  | text (data : String)
  | space (data : String)
  | startTag (tag : Tag)
  | endTag (name : String)
  | comment (data : String)
  | doctype (declaration : Doctype)
  | problem (problem : Problem)
  deriving DecidableEq, Repr

/-- Text as one token: white space if it is a single space character, as
references give it, and ordinary text otherwise. -/
def Token.ofReference (text : List Char) : Token :=
  match text with
  | [c] => if isSpace c then .space (String.ofList [c]) else .text (String.ofList [c])
  | text => .text (String.ofList text)

end Winnow.Html
