import Winnow.Html.Construction.Formatting

/-!
# End tags

What an end tag does in each mode. A reply says whether the tag is to be taken
once more, in the mode that holds after it.
-/

namespace Winnow.Html

/-- A builder after a token, and whether the token is to be taken once more. -/
abbrev Reply := Builder × Bool

namespace Builder

/-- The token has been taken. -/
def done (b : Builder) : Reply := (b, false)

/-- The token is to be taken once more. -/
def again (b : Builder) : Reply := (b, true)

/-! ## Ordinary content -/

/-- Blocks that their end tag closes with everything inside. -/
def blockNames : List String := [
  "address", "article", "aside", "blockquote", "button", "center", "details", "dialog", "dir",
  "div", "dl", "fieldset", "figcaption", "figure", "footer", "header", "hgroup", "listing",
  "main", "menu", "nav", "ol", "pre", "section", "summary", "ul"]

/-- Elements that are continued after the end of a block. -/
def formattingNames : List String := [
  "a", "b", "big", "code", "em", "font", "i", "nobr", "s", "small", "strike", "strong", "tt", "u"]

/-- Embedded elements that keep the formatting outside from reaching inside. -/
def objectNames : List String := ["applet", "marquee", "object"]

/-- Close a paragraph that is in scope. -/
def closeParagraph (b : Builder) : Builder := (b.popImplied "p").popThrough ["p"]

/-- Close a paragraph if one is in scope. -/
def leaveParagraph (b : Builder) : Builder :=
  if b.inScope .button "p" then b.closeParagraph else b

/-- The end tag of a paragraph; without a paragraph it makes an empty one. -/
def endParagraph (b : Builder) : Builder :=
  if b.inScope .button "p" then b.closeParagraph else (b.openNamed "p").closeParagraph

/-- The end tag of a block. -/
def endBlock (b : Builder) (tag : String) : Builder :=
  let b := if tag = "pre" then { b with dropNewline := false } else b
  if b.inScope .ordinary tag then (b.popImplied "").popThrough [tag] else b

/-- The end tag of a form, which leaves open what is inside the form. -/
def endForm (b : Builder) : Builder :=
  let form := b.formElement
  let b := { b with formElement := none }
  match form with
  | none => b
  | some form =>
    if b.handleInScope .ordinary form then
      let b := b.popImplied ""
      { b with stack := b.stack.erase form }
    else b

/-- The end tag of an item of a list. -/
def endItem (b : Builder) (tag : String) : Builder :=
  if b.inScope (if tag = "li" then .list else .ordinary) tag then
    (b.popImplied tag).popThrough [tag]
  else b

/-- The end tag of a heading, which closes a heading of any level. -/
def endHeading (b : Builder) : Builder :=
  if b.anyInScope .ordinary Vocabulary.headings then
    let b := b.popImplied ""
    if b.anyInScope .ordinary Vocabulary.headings then b.popThrough Vocabulary.headings else b
  else b

/-- The end tag of an object. -/
def endObject (b : Builder) (tag : String) : Builder :=
  if b.inScope .ordinary tag then
    let b := b.popImplied ""
    if b.inScope .ordinary tag then (b.popThrough [tag]).clearToMarker else b
  else b

/-- An end tag in ordinary content. -/
def endInBody (b : Builder) (tag : String) : Reply :=
  if tag = "body" then
    (if b.inScope .ordinary "body" then b.goto .afterBody else b).done
  else if tag = "html" then
    if b.inScope .ordinary "body" then (b.goto .afterBody).again else b.done
  else if blockNames.contains tag then (b.endBlock tag).done
  else if tag = "form" then b.endForm.done
  else if tag = "p" then b.endParagraph.done
  else if tag = "dd" || tag = "dt" || tag = "li" then (b.endItem tag).done
  else if Vocabulary.headings.contains tag then b.endHeading.done
  else if formattingNames.contains tag then (b.endFormatting tag).done
  else if objectNames.contains tag then (b.endObject tag).done
  else if tag = "br" then (b.reconstruct.openVoid { name := "br" }).done
  else (b.endOther tag).done

/-! ## The head -/

/-- Open the body. -/
def openBody (b : Builder) : Builder :=
  { b.openNamed "body" with mode := .body, framesetOk := true }

/-- Open the head. -/
def openHead (b : Builder) (tag : Tag) : Builder :=
  let b := b.openElement tag
  { b with headElement := some b.current, mode := .head }

/-- Close the head. -/
def leaveHead (b : Builder) : Builder := b.pop.goto .afterHead

/-- End tags that make the parts of a document before them. -/
def impliesParts (tag : String) : Bool := tag = "head" || tag = "body" || tag = "html" || tag = "br"

/-- An end tag in the head. -/
def endInHead (b : Builder) (tag : String) : Reply :=
  if tag = "head" then b.leaveHead.done
  else if impliesParts tag then b.leaveHead.again
  else b.done

/-- An end tag in the part of the head for readers without scripting. -/
def endInHeadNoscript (b : Builder) (tag : String) : Reply :=
  if tag = "noscript" then (b.pop.goto .head).done
  else if tag = "br" then (b.pop.goto .head).again
  else b.done

/-! ## Tables -/

/-- The groups of rows. -/
def rowGroups : List String := ["tbody", "tfoot", "thead"]

/-- Take an end tag as in ordinary content, moving new content out of the table. -/
def endOutsideTable (b : Builder) (tag : String) : Reply :=
  let (b, _) := ({ b with fosters := true }).endInBody tag
  ({ b with fosters := false }).done

/-- An end tag directly in a table. -/
def endInTable (b : Builder) (tag : String) : Reply :=
  if tag = "table" then
    if b.inScope .table "table" then
      ((b.popImplied "").popThrough ["table"]).resetMode.done
    else (b.expect false).done
  else if ["body", "caption", "col", "colgroup", "html", "tbody", "td", "tfoot", "th", "thead",
      "tr"].contains tag then b.done
  else b.endOutsideTable tag

/-- Close the caption. Tells also whether there was one. -/
def leaveCaption (b : Builder) : Reply :=
  if b.inScope .table "caption" then
    ((((b.popImplied "").popThrough ["caption"]).clearToMarker).goto .table).again
  else (b.expect false).done

/-- An end tag in a caption. -/
def endInCaption (b : Builder) (tag : String) : Reply :=
  if tag = "caption" then (b.leaveCaption.1).done
  else if tag = "table" then b.leaveCaption
  else if ["body", "col", "colgroup", "html", "tbody", "td", "tfoot", "th", "thead",
      "tr"].contains tag then b.done
  else b.endInBody tag

/-- Close the group of columns. Tells also whether there was one. -/
def leaveColumnGroup (b : Builder) : Reply :=
  if b.currentName = "html" then (b.expect false).done else (b.pop.goto .table).again

/-- An end tag in a group of columns. -/
def endInColumnGroup (b : Builder) (tag : String) : Reply :=
  if tag = "colgroup" then (b.leaveColumnGroup.1).done
  else if tag = "col" then b.done
  else b.leaveColumnGroup

/-- Close elements back to a group of rows. -/
def popToRowGroup (b : Builder) : Builder :=
  let b := b.popTo (rowGroups ++ ["html"])
  b.expect (b.currentName != "html")

/-- The end tag of a group of rows. -/
def endRowGroup (b : Builder) (tag : String) : Builder :=
  if b.inScope .table tag then (b.popToRowGroup.pop).goto .table else b

/-- Close the group of rows that is open, if there is one, to take a tag outside it. -/
def leaveRowGroup (b : Builder) : Reply :=
  if b.anyInScope .table rowGroups then
    let b := b.popToRowGroup
    (b.endRowGroup b.currentName).again
  else (b.expect false).done

/-- An end tag in a group of rows. -/
def endInTableBody (b : Builder) (tag : String) : Reply :=
  if rowGroups.contains tag then (b.endRowGroup tag).done
  else if tag = "table" then b.leaveRowGroup
  else if ["body", "caption", "col", "colgroup", "html", "td", "th", "tr"].contains tag then b.done
  else b.endInTable tag

/-- Close elements back to a row. -/
def popToRow (b : Builder) : Builder := b.popTo ["tr", "html"]

/-- Close the row. Tells also whether there was one. -/
def leaveRow (b : Builder) : Reply :=
  if b.inScope .table "tr" then ((b.popToRow.pop).goto .tableBody).again
  else (b.expect false).done

/-- An end tag in a row. -/
def endInRow (b : Builder) (tag : String) : Reply :=
  if tag = "tr" then (b.leaveRow.1).done
  else if tag = "table" then b.leaveRow
  else if rowGroups.contains tag then
    if b.inScope .table tag then (b.leaveRow.1).again else b.done
  else if ["body", "caption", "col", "colgroup", "html", "td", "th"].contains tag then b.done
  else b.endInTable tag

/-- The end tag of a cell. -/
def endCell (b : Builder) (tag : String) : Builder :=
  if b.inScope .table tag then
    (((b.popImplied tag).popThrough [tag]).clearToMarker).goto .row
  else b

/-- Close the cell. -/
def leaveCell (b : Builder) : Builder :=
  if b.inScope .table "td" then b.endCell "td" else b.endCell "th"

/-- An end tag in a cell. -/
def endInCell (b : Builder) (tag : String) : Reply :=
  if tag = "td" || tag = "th" then (b.endCell tag).done
  else if ["body", "caption", "col", "colgroup", "html"].contains tag then b.done
  else if tag = "table" || tag = "tr" || rowGroups.contains tag then
    if b.inScope .table tag then b.leaveCell.again else b.done
  else b.endInBody tag

/-! ## Selections -/

/-- The end tag of a selection. -/
def endSelect (b : Builder) : Builder :=
  if b.inScope .select "select" then (b.popThrough ["select"]).resetMode else b.expect false

/-- The end tag of a group of options, which also closes an option in it. -/
def endOptionGroup (b : Builder) : Builder :=
  let b :=
    if b.currentName = "option" && (b.stack[1]?).any (b.name · == "optgroup") then b.pop else b
  if b.currentName = "optgroup" then b.pop else b

/-- An end tag in a selection. -/
def endInSelect (b : Builder) (tag : String) : Reply :=
  if tag = "option" then (if b.currentName = "option" then b.pop else b).done
  else if tag = "optgroup" then b.endOptionGroup.done
  else if tag = "select" then b.endSelect.done
  else b.done

/-- Parts of a table whose tags end a selection in the table. -/
def endsSelection : List String := [
  "caption", "table", "tbody", "tfoot", "thead", "tr", "td", "th"]

/-- An end tag in a selection in a table. -/
def endInTableSelect (b : Builder) (tag : String) : Reply :=
  if endsSelection.contains tag then
    if b.inScope .table tag then b.endSelect.again else b.done
  else b.endInSelect tag

/-! ## Any mode -/

/-- Add the text met in a table: moved out of it unless it is all white space. -/
def flushTableText (b : Builder) : Builder :=
  let text := String.join b.tableTexts.reverse
  let b := { b with tableTexts := [], mode := b.tableReturn }
  if text.toList.any (!isSpace ·) then
    { ({ b with fosters := true }).reconstruct.addText text with
      fosters := false, framesetOk := false }
  else if text.isEmpty then b
  else b.addText text

/-- The end tag of a frame set. -/
def endFrameset (b : Builder) : Builder :=
  let b := if b.currentName = "html" then b else b.pop
  if !b.fragment && b.currentName != "frameset" then b.goto .afterFrameset else b

/-- An end tag in the current mode. -/
def endTag (b : Builder) (tag : String) : Reply :=
  match b.mode with
  | .initial => { b with oldRules := true, mode := .beforeHtml }.again
  | .beforeHtml => if impliesParts tag then b.openRoot.again else b.done
  | .beforeHead => if impliesParts tag then (b.openHead { name := "head" }).again else b.done
  | .head => b.endInHead tag
  | .headNoscript => b.endInHeadNoscript tag
  | .afterHead =>
    if tag = "body" || tag = "html" || tag = "br" then b.openBody.again else b.done
  | .body => b.endInBody tag
  | .text => (b.pop.goto b.textReturn).done
  | .table => b.endInTable tag
  | .tableText => b.flushTableText.again
  | .caption => b.endInCaption tag
  | .columnGroup => b.endInColumnGroup tag
  | .tableBody => b.endInTableBody tag
  | .row => b.endInRow tag
  | .cell => b.endInCell tag
  | .select => b.endInSelect tag
  | .selectInTable => b.endInTableSelect tag
  | .afterBody =>
    if tag = "html" then (if b.fragment then b else b.goto .afterAfterBody).done
    else (b.goto .body).again
  | .frameset => (if tag = "frameset" then b.endFrameset else b).done
  | .afterFrameset => (if tag = "html" then b.goto .afterAfterFrameset else b).done
  | .afterAfterBody => (b.goto .body).again
  | .afterAfterFrameset => b.done

/-- Go outward over foreign elements to the one that an end tag closes; the
mode takes an end tag that closes none of them. -/
def endForeignFrom (b : Builder) (tag : String) : List Handle → Reply
  | [] => b.done
  | handle :: outer =>
    let label := b.label handle
    if Text.asciiLower label.tag == tag then
      let b := if b.mode = .tableText then b.flushTableText else b
      { b with stack := (b.stack.dropWhile (· != handle)).drop 1 }.done
    else
      match outer with
      | [] => b.done
      | next :: _ => if (b.label next).space = .html then b.endTag tag
        else b.endForeignFrom tag outer

/-- An end tag in foreign content. -/
def endForeign (b : Builder) (tag : String) : Reply := b.endForeignFrom tag b.stack

end Builder

end Winnow.Html
