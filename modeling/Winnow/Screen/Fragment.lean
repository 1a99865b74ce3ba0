import Winnow.Html.Construction
import Winnow.Text.Blank

/-!
# Reading a fragment

A fragment is read as the content of a block, with its references as they are
written. Tags of other elements than the known ones count as nothing, or as a
line end where a block would have begun. What only looks like a tag is text
again.
-/

namespace Winnow.Screen

open Html

/-- Elements that begin a block. -/
def blockTags : List String := [
  "address", "article", "aside", "blockquote", "details", "dialog", "dd", "div", "dl", "dt",
  "fieldset", "figcaption", "figure", "footer", "form", "h1", "h2", "h3", "h4", "h5", "h6",
  "header", "hgroup", "hr", "li", "main", "nav", "ol", "p", "pre", "section", "table", "ul"]

/-- The input from the latest opening bracket to where the lexer stands. -/
def sourceOf (lexer : Lexer) : String :=
  String.ofList (lexer.fromBracket.take (lexer.fromBracket.length - lexer.input.length))

/-- Where the reading of tokens stands. -/
structure Sieve where
  /-- The known element names, in lower case. -/
  tags : List String
  /-- The problem met directly before. -/
  pending : Option Problem := none
  /-- Has any tag been met? -/
  metTag : Bool := false

namespace Sieve

/-- Is an element of this name known? -/
def knows (sieve : Sieve) (name : String) : Bool := sieve.tags.contains (Text.lower name)

/-- What stands for a start tag of an unknown element. -/
def instead (sieve : Sieve) (name : String) : Token :=
  .text (if sieve.metTag && blockTags.contains (Text.lower name) then "\n" else "")

/-- Is the name of an attribute free of quotes and opening brackets? -/
def isCleanName (name : String) : Bool :=
  !name.toList.any fun c => c = '"' || c = '\'' || c = '<'

/-- A start tag, without its badly named attributes if one of them was met last. -/
def repair (sieve : Sieve) (tag : Tag) : Tag :=
  if sieve.pending = some .quoteInAttributeName then
    { tag with attributes := List.filter (fun entry => isCleanName entry.1) tag.attributes }
  else tag

/-- Is this comment a badly written end tag of an unknown element? -/
def isFalseEnd (sieve : Sieve) (data : String) : Bool :=
  decide (sieve.pending = some .unnamedEndTag) &&
    !sieve.tags.contains (String.ofList (Text.strip (Text.lowerChars data.toList)))

/-- Take one token, given the lexer that stands after it. -/
def take (sieve : Sieve) (lexer : Lexer) (token : Token) : Sieve × Token :=
  let next := { sieve with pending := none }
  match token with
  | .startTag tag =>
    ({ next with metTag := true },
      if sieve.knows tag.name then .startTag (sieve.repair tag) else sieve.instead tag.name)
  | .endTag name =>
    ({ next with metTag := true }, if sieve.knows name then .endTag name else .text "")
  | .comment data =>
    (next, if sieve.isFalseEnd data then .text (sourceOf lexer) else .comment data)
  | .problem problem => ({ next with pending := some problem }, .problem problem)
  | token => (next, token)

/-- Take tokens in order, given the lexer that stands after them. -/
def takeAll (sieve : Sieve) (lexer : Lexer) : List Token → Sieve × List Token
  | [] => (sieve, [])
  | token :: rest =>
    let (sieve, token) := sieve.take lexer token
    let (sieve, rest) := sieve.takeAll lexer rest
    (sieve, token :: rest)

/-- Is a tag that the input ends in text? -/
def endsInText (sieve : Sieve) : Bool :=
  match sieve.pending with
  | some .endInTagName => true
  | some .endInAttribute => true
  | some .repeatedAttribute => true
  | _ => false

/-- The tokens after the last one. -/
def finish (sieve : Sieve) (lexer : Lexer) : List Token :=
  if sieve.endsInText then [.text (sourceOf lexer)] else []

end Sieve

/-- Build the tree of a fragment, in at most `fuel` steps of the lexer. -/
def buildFragment (sieve : Sieve) (lexer : Lexer) (b : Builder) : Nat → Except Fault Builder
  | 0 => .ok (b.takeAll (sieve.finish lexer)).finish
  | fuel + 1 =>
    if lexer.input.isEmpty then .ok (b.takeAll (sieve.finish lexer)).finish
    else
      match lexer.step b.inForeign with
      | .error fault => .error fault
      | .ok (tokens, lexer) =>
        let (sieve, tokens) := sieve.takeAll lexer tokens
        let b := b.takeAll tokens
        let lexer := { lexer with model := b.request.getD lexer.model }
        buildFragment sieve lexer { b with request := none } fuel

/-- The trees at the top of a fragment. What was moved out of a table at the top
is lost with the text after it. -/
def fragmentTrees (b : Builder) : List Tree :=
  (b.followers true (b.store.children b.root)).map b.store.toTree

/-- Read a fragment in which elements of the given names are known. -/
def parseFragment (tags : List String) (text : List Char) : Except Fault (List Tree) := do
  let lexer := Lexer.ofString (String.ofList text) false
  let sieve : Sieve := { tags := tags.map Text.lower }
  let b ← buildFragment sieve lexer Builder.emptyFragment lexer.input.length
  return fragmentTrees b

end Winnow.Screen
