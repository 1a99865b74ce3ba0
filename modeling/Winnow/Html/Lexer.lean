import Winnow.Html.Lexer.Comment
import Winnow.Html.Lexer.RawText
import Winnow.Html.Lexer.Tag
import Winnow.Text.Lines

/-!
# Cutting a document into tokens

A lexer is the input still to read with the content model that holds for it.
`Lexer.step` reads one stretch of text or one piece of markup and gives its
tokens with the lexer for the rest, which is always shorter. The content model
is set from outside, by whoever builds the tree.
-/

namespace Winnow.Html

/-- What counts as markup in the input. -/
inductive ContentModel where
  /-- Tags, comments and references. -/
  | markup
  /-- References and the end tag of the current element. -/
  | escapable
  /-- The end tag of the current element only. -/
  | raw
  /-- The end tag of the current script. -/
  | script
  /-- Nothing. -/
  | plain
  deriving DecidableEq, Repr

/-- Input with the way in which it is to be read. -/
structure Lexer where
  input : List Char
  model : ContentModel := .markup
  /-- The name of the latest start tag: the only end tag in raw content. -/
  lastStart : String := ""
  /-- The input from the latest bracket that could open a tag. -/
  fromBracket : List Char := []
  /-- Are references resolved? -/
  expand : Bool := true

namespace Lexer

/-- A lexer for a document. -/
def ofString (text : String) (expand : Bool) : Lexer :=
  { input := Text.unifyLineEnds text.toList, expand := expand }

/-- The lexer for the rest of the input. -/
def rest (lexer : Lexer) (input : List Char) : Lexer := { lexer with input := input }

/-- A token of ordinary text. -/
def textToken (text : List Char) : Token := .text (String.ofList text)

/-- Remember the name of a start tag. -/
def noteStart (lexer : Lexer) (tokens : List Token) : Lexer :=
  match tokens.getLast? with
  | some (.startTag tag) => { lexer with lastStart := tag.name }
  | _ => lexer

/-- Read a tag from the given draft. After it everything is markup again. -/
def readTag (lexer : Lexer) (isEnd : Bool) (draft : TagDraft) (input : List Char) :
    Except Fault (List Token × Lexer) := do
  let (tokens, input) ← draft.run lexer.expand isEnd 0 input
  return (tokens, ({ lexer with input := input, model := .markup }).noteStart tokens)

/-- Read what follows an opening bracket and an exclamation mark. -/
def readDeclaration (lexer : Lexer) (foreign : Bool) (input : List Char) :
    List Token × Lexer :=
  match input with
  | '-' :: '-' :: cs =>
    let (data, input) := readComment .start [] cs
    ([.comment (String.ofList data)], lexer.rest input)
  | cs =>
    if DoctypeDraft.keywordFollows "doctype".toList cs then
      let (declaration, input) := DoctypeDraft.run {} 0 (cs.drop 7)
      ([.doctype declaration], lexer.rest input)
    else if foreign && "[CDATA[".toList.isPrefixOf cs then
      let (data, input) := readSection (cs.drop 7)
      (if data.isEmpty then [] else [textToken data], lexer.rest input)
    else
      let (data, input) := readBogusComment cs
      ([.problem .other, .comment (String.ofList data)], lexer.rest input)

/-- Read what follows an opening bracket. -/
def readMarkup (lexer : Lexer) (foreign : Bool) (input : List Char) :
    Except Fault (List Token × Lexer) :=
  match input with
  | '!' :: cs => .ok (lexer.readDeclaration foreign cs)
  | '/' :: c :: cs =>
    if Text.isAsciiLetter c then
      lexer.readTag true { name := [Text.asciiLowerChar c] } cs
    else if c = '>' then .ok ([.problem .other], lexer.rest cs)
    else
      let (data, input) := readBogusComment (c :: cs)
      .ok ([.problem .unnamedEndTag, .comment (String.ofList data)], lexer.rest input)
  | ['/'] => .ok ([.problem .other, .text "</"], lexer.rest [])
  | '>' :: cs => .ok ([.problem .other, .text "<>"], lexer.rest cs)
  | '?' :: cs =>
    let (data, input) := readBogusComment ('?' :: cs)
    .ok ([.problem .other, .comment (String.ofList data)], lexer.rest input)
  | c :: cs =>
    if Text.isAsciiLetter c then
      lexer.readTag false { name := [Text.asciiLowerChar c] } cs
    else .ok ([.problem .other, .text "<"], lexer.rest (c :: cs))
  | [] => .ok ([.problem .other, .text "<"], lexer.rest [])

/-- Read what follows an ampersand in text. -/
def readReference (lexer : Lexer) (input : List Char) : Except Fault (List Token × Lexer) :=
  if lexer.expand then do
    let (text, taken) ← Entity.read false none input
    return ([.ofReference text], lexer.rest (input.drop taken))
  else return ([.text "&"], lexer.rest input)

/-- Read a run of text up to a character that ends it. -/
def readText (lexer : Lexer) (ends : Char → Bool) (c : Char) (input : List Char) :
    List Token × Lexer :=
  if isSpace c then
    ([.space (String.ofList (c :: input.takeWhile isSpace))],
      lexer.rest (input.dropWhile isSpace))
  else
    ([textToken (c :: input.takeWhile (!ends ·))], lexer.rest (input.dropWhile (!ends ·)))

/-- Read the end tag of a raw element, or the characters that only look like it. -/
def readRawBracket (lexer : Lexer) (input : List Char) : Except Fault (List Token × Lexer) :=
  match endTagAhead? lexer.lastStart input with
  | some input =>
    lexer.readTag true { name := lexer.lastStart.toList.reverse } input
  | none =>
    let text := slashAndLetters input
    .ok ([textToken ('<' :: text)], lexer.rest (input.drop text.length))

/-- Read one unit of a nonempty input. `foreign` tells whether the current
element is foreign, where bracketed sections are text. -/
def step (lexer : Lexer) (foreign : Bool) : Except Fault (List Token × Lexer) :=
  match lexer.input with
  | [] => .ok ([], lexer)
  | c :: cs =>
    match lexer.model with
    | .markup =>
      if c = '&' then lexer.readReference cs
      else if c = '<' then ({ lexer with fromBracket := c :: cs }).readMarkup foreign cs
      else if c = nullChar then
        .ok ([.problem .other, .text (String.ofList [nullChar])], lexer.rest cs)
      else .ok (lexer.readText (fun d => d = '&' || d = '<' || d = nullChar) c cs)
    | .escapable =>
      if c = '&' then lexer.readReference cs
      else if c = '<' then lexer.readRawBracket cs
      else if c = nullChar then
        .ok ([.problem .other, .text (String.ofList [replacement])], lexer.rest cs)
      else .ok (lexer.readText (fun d => d = '&' || d = '<' || d = nullChar) c cs)
    | .raw =>
      if c = '<' then lexer.readRawBracket cs
      else
        .ok ([textToken ((c :: cs.takeWhile (· != '<')).map replaceNull)],
          lexer.rest (cs.dropWhile (· != '<')))
    | .script =>
      let (text, input) := splitScript lexer.lastStart .plain (c :: cs)
      if text.isEmpty then lexer.readRawBracket cs
      else .ok ([textToken text], lexer.rest input)
    | .plain => .ok ([textToken ((c :: cs).map replaceNull)], lexer.rest [])

end Lexer

end Winnow.Html
