import Winnow.Html.Construction.Opening

/-!
# Tree construction

Text, comments and the end of the input, and the run of a lexer and a builder
side by side. Every text has a document: what is written badly is moved, closed
or passed over. `parse` gives the tree of a whole document.
-/

namespace Winnow.Html

namespace Builder

/-! ## Text -/

/-- Note a piece of text met in a table. -/
def noteTableText (b : Builder) (text : String) : Builder :=
  { b with tableTexts := text :: b.tableTexts }

/-- Start collecting text met in a table. -/
def startTableText (b : Builder) (text : String) : Builder :=
  let b := { b with tableReturn := b.mode, mode := .tableText }
  if text = String.ofList [nullChar] then b else b.noteTableText text

/-- Text in a selection. -/
def textInSelect (b : Builder) (text : String) : Builder :=
  if text = String.ofList [nullChar] then b else b.addText text

/-- Text in the current mode. -/
def takeText (b : Builder) (text : String) : Reply :=
  match b.mode with
  | .initial => { b with oldRules := true, mode := .beforeHtml }.again
  | .beforeHtml => b.openRoot.again
  | .beforeHead => (b.openHead { name := "head" }).again
  | .head => b.leaveHead.again
  | .headNoscript => (b.pop.goto .head).again
  | .afterHead => b.openBody.again
  | .body => (b.textInBody text).done
  | .text => (b.addText text).done
  | .table => (b.startTableText text).done
  | .tableText =>
    (if text = String.ofList [nullChar] then b else b.noteTableText text).done
  | .caption => (b.textInBody text).done
  | .columnGroup => b.leaveColumnGroup
  | .tableBody => (b.startTableText text).done
  | .row => (b.startTableText text).done
  | .cell => (b.textInBody text).done
  | .select => (b.textInSelect text).done
  | .selectInTable => (b.textInSelect text).done
  | .afterBody => (b.goto .body).again
  | .frameset => b.done
  | .afterFrameset => b.done
  | .afterAfterBody => (b.goto .body).again
  | .afterAfterFrameset => b.done

/-- The elements that may drop a line feed at the start of their content. -/
def newlineDroppers : List String := ["pre", "listing", "textarea"]

/-- Does a node have no content? -/
def isVacant (b : Builder) (handle : Handle) : Bool :=
  (b.store.children handle).all fun child => (b.label child).isText && (b.label child).text.isEmpty

/-- White space in ordinary content. -/
def spaceInBody (b : Builder) (text : String) : Builder :=
  if b.dropNewline then
    let drops := newlineDroppers.contains b.currentName && b.isVacant b.current
    let b := { b with dropNewline := false }
    let text := match text.toList with
      | '\n' :: cs => if drops then String.ofList cs else text
      | _ => text
    if text.isEmpty then b else b.reconstruct.addText text
  else b.reconstruct.addText text

/-- White space in the current mode. -/
def takeSpace (b : Builder) (text : String) : Builder :=
  match b.mode with
  | .initial => b
  | .beforeHtml => b
  | .beforeHead => b
  | .body => b.spaceInBody text
  | .table => b.startTableText text
  | .tableText => b.noteTableText text
  | .tableBody => b.startTableText text
  | .row => b.startTableText text
  | .afterAfterBody => b.spaceInBody text
  | .afterAfterFrameset => b.spaceInBody text
  | _ => b.addText text

/-- Text in foreign content. -/
def textInForeign (b : Builder) (text : String) : Builder :=
  if text = String.ofList [nullChar] then b.addText (String.ofList [replacement])
  else (if text.toList.any (!isSpace ·) then b.keepBody else b).addText text

/-! ## Comments and declarations -/

/-- A comment in the current mode. -/
def takeComment (b : Builder) (text : String) : Reply :=
  match b.mode with
  | .initial => (b.addComment 0 text).done
  | .beforeHtml => (b.addComment 0 text).done
  | .tableText => b.flushTableText.again
  | .afterBody => (b.addComment b.root text).done
  | .afterAfterBody => (b.addComment 0 text).done
  | .afterAfterFrameset => (b.addComment 0 text).done
  | _ => (b.addComment b.current text).done

/-- A document type declaration counts only at the start. -/
def takeDoctype (b : Builder) (declaration : Doctype) : Builder :=
  match b.mode with
  | .initial =>
    { b with mode := .beforeHtml, oldRules := Vocabulary.callsForOldRules declaration }
  | _ => b

/-! ## One token -/

/-- Is a token taken by the current mode, or by the rules of foreign content? -/
def takesInMode (b : Builder) (token : Token) : Bool :=
  match b.stack with
  | [] => true
  | handle :: _ =>
    let label := b.label handle
    label.space = .html ||
      match token with
      | .text _ => b.takesText handle || b.takesHtml handle
      | .space _ => b.takesText handle || b.takesHtml handle
      | .startTag tag =>
        (b.takesText handle && tag.name != "mglyph" && tag.name != "malignmark") ||
          (label.space = .mathml && label.tag == "annotation-xml" && tag.name == "svg") ||
          b.takesHtml handle
      | _ => false

/-- Take a token by the current mode. -/
def takeInMode (b : Builder) (token : Token) : Reply :=
  match token with
  | .text data => b.takeText data
  | .space data => (b.takeSpace data).done
  | .startTag tag => b.startTag tag
  | .endTag name => b.endTag name
  | .comment data => b.takeComment data
  | .doctype declaration => (b.takeDoctype declaration).done
  | .problem _ => b.done

/-- Take a token by the rules of foreign content. -/
def takeInForeign (b : Builder) (token : Token) : Reply :=
  match token with
  | .text data => (b.textInForeign data).done
  | .space data => (b.addText data).done
  | .startTag tag => b.startForeign tag
  | .endTag name => b.endForeign name
  | .comment data => (b.addComment b.current data).done
  | .doctype _ => b.done
  | .problem _ => b.done

/-- Take a token until it has had its effect, in at most `fuel` modes. -/
def takeIn (b : Builder) (token : Token) : Nat → Builder
  | 0 => b
  | fuel + 1 =>
    let (b, again) := if b.takesInMode token then b.takeInMode token else b.takeInForeign token
    if again && b.fault.isNone then b.takeIn token fuel else b

/-- Take a token. Each further mode closes an element or goes on to a later part
of the document. -/
def take (b : Builder) (token : Token) : Builder := b.takeIn token (b.stack.length + 32)

/-- Take tokens in order. -/
def takeAll (b : Builder) (tokens : List Token) : Builder := tokens.foldl take b

/-! ## The end of the input -/

/-- The end of the input in the current mode. -/
def finishInMode (b : Builder) : Reply :=
  match b.mode with
  | .initial => { b with oldRules := true, mode := .beforeHtml }.again
  | .beforeHtml => b.openRoot.again
  | .beforeHead => (b.openHead { name := "head" }).again
  | .head => b.leaveHead.again
  | .headNoscript => (b.pop.goto .head).again
  | .afterHead => b.openBody.again
  | .text => (b.pop.goto b.textReturn).again
  | .tableText => b.flushTableText.again
  | .columnGroup => b.leaveColumnGroup
  | .table => (b.expect (b.currentName != "html")).done
  | .tableBody => (b.expect (b.currentName != "html")).done
  | .row => (b.expect (b.currentName != "html")).done
  | .select => (b.expect (b.currentName != "html")).done
  | .selectInTable => (b.expect (b.currentName != "html")).done
  | .frameset => (b.expect (b.currentName != "html")).done
  | _ => b.done

/-- End the document, in at most `fuel` modes. -/
def finishIn (b : Builder) : Nat → Builder
  | 0 => b
  | fuel + 1 =>
    let (b, again) := b.finishInMode
    if again && b.fault.isNone then b.finishIn fuel else b

/-- End the document. -/
def finish (b : Builder) : Builder := b.finishIn 16

/-- A builder with an empty document. -/
def empty : Builder := { store := (Store.add {} .document).1 }

/-- A builder for the content of a block. -/
def emptyFragment : Builder :=
  { empty.openRoot with fragment := true, mode := .body }

end Builder

/-- Read input to its end and build the document, in at most `fuel` steps of
the lexer. -/
def construct (lexer : Lexer) (b : Builder) : Nat → Except Fault Builder
  | 0 => .ok b.finish
  | fuel + 1 =>
    if lexer.input.isEmpty then .ok b.finish
    else
      match lexer.step b.inForeign with
      | .error fault => .error fault
      | .ok (tokens, lexer) =>
        let b := b.takeAll tokens
        if b.fault.isSome then .ok b
        else
          let lexer := { lexer with model := b.request.getD lexer.model }
          construct lexer { b with request := none } fuel

/-- The document that a text writes. -/
def parse (text : String) : Except Fault Tree := do
  let lexer := Lexer.ofString text true
  let b ← construct lexer Builder.empty lexer.input.length
  match b.fault with
  | some fault => .error fault
  | none => .ok (b.store.toTree 0)

end Winnow.Html
