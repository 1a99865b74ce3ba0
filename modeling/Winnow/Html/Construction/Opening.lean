import Winnow.Html.Construction.Closing

/-!
# Start tags

What a start tag does in each mode.
-/

namespace Winnow.Html.Builder

/-- Give the outermost element the attributes that it does not have yet. -/
def mergeRoot (b : Builder) (tag : Tag) : Builder := b.addMissing b.root tag.attributes

/-- Has an attribute the value `hidden`, in any case? -/
def isHidden (tag : Tag) : Bool :=
  (tag.attributes.find? "type").any fun value => Text.asciiLower value == "hidden"

/-! ## The head -/

/-- A start tag in the head; other tags than these close the head. -/
def startInHead (b : Builder) (tag : Tag) : Reply :=
  match tag.name with
  | "html" => (b.mergeRoot tag).done
  | "title" => (b.openRaw tag .escapable).done
  | "noframes" => (b.openRaw tag .raw).done
  | "style" => (b.openRaw tag .raw).done
  | "noscript" =>
    if b.fragment then (b.openRaw tag .raw).done
    else ((b.openElement tag).goto .headNoscript).done
  | "script" => (b.openRaw tag .script).done
  | "base" => (b.openVoid tag).done
  | "basefont" => (b.openVoid tag).done
  | "bgsound" => (b.openVoid tag).done
  | "command" => (b.openVoid tag).done
  | "link" => (b.openVoid tag).done
  | "meta" => (b.openVoid tag).done
  | "head" => b.done
  | _ => b.leaveHead.again

/-- A start tag in the part of the head for readers without scripting. -/
def startInHeadNoscript (b : Builder) (tag : Tag) : Reply :=
  if tag.name = "html" then (b.mergeRoot tag).done
  else if ["basefont", "bgsound", "link", "meta", "noframes", "style"].contains tag.name then
    b.startInHead tag
  else if tag.name = "head" || tag.name = "noscript" then b.done
  else (b.pop.goto .head).again

/-- Elements of the head that may stand after it. -/
def headNames : List String := [
  "base", "basefont", "bgsound", "link", "meta", "noframes", "script", "style", "title"]

/-- Put an element that stands after the head into it. -/
def startIntoHead (b : Builder) (tag : Tag) : Builder :=
  let (b, _) := ({ b with stack := b.headElement.toList ++ b.stack }).startInHead tag
  match b.stack.find? (b.name · == "head") with
  | some head => { b with stack := b.stack.erase head }
  | none => b

/-- A start tag between the head and the body. -/
def startAfterHead (b : Builder) (tag : Tag) : Reply :=
  if tag.name = "html" then (b.mergeRoot tag).done
  else if tag.name = "body" then ((b.keepBody.openElement tag).goto .body).done
  else if tag.name = "frameset" then ((b.openElement tag).goto .frameset).done
  else if headNames.contains tag.name then (b.startIntoHead tag).done
  else if tag.name = "head" then b.done
  else b.openBody.again

/-! ## Ordinary content -/

/-- A second body tag gives the body the attributes that it does not have yet. -/
def startBody (b : Builder) (tag : Tag) : Builder :=
  match b.second? with
  | some body =>
    if b.name body = "body" then b.keepBody.addMissing body tag.attributes else b.expect false
  | none => b.expect false

/-- A frame set takes the place of a body in which nothing counts yet. -/
def startFrameset (b : Builder) (tag : Tag) : Builder :=
  match b.second? with
  | some body =>
    if b.name body = "body" then
      if b.framesetOk then
        let b := { b with store := b.store.detach body }
        ((b.popTo ["html"]).openElement tag).goto .frameset
      else b
    else b.expect false
  | none => b.expect false

/-- Open an element after closing the paragraph in scope. -/
def openBlock (b : Builder) (tag : Tag) : Builder := b.leaveParagraph.openElement tag

/-- The start tag of a form; forms do not nest. -/
def startForm (b : Builder) (tag : Tag) : Builder :=
  if b.formElement.isSome then b
  else
    let b := b.openBlock tag
    { b with formElement := some b.current }

/-- The names of items that a new item closes. -/
def itemsClosedBy (tag : String) : List String := if tag = "li" then ["li"] else ["dt", "dd"]

/-- The name of the open item that a new item closes, going outward. -/
def openItem? (b : Builder) (items : List String) : List Handle → Option String
  | [] => none
  | handle :: outer =>
    let label := b.label handle
    if items.contains label.tag then some label.tag
    else if Vocabulary.isSpecial label.space label.tag &&
        !(["address", "div", "p"].contains label.tag) then none
    else b.openItem? items outer

/-- The start tag of an item of a list. -/
def startItem (b : Builder) (tag : Tag) : Builder :=
  let b := b.keepBody
  let b := match b.openItem? (itemsClosedBy tag.name) b.stack with
    | some item => (b.endTag item).1
    | none => b
  let b := if b.inScope .button "p" then (b.endTag "p").1 else b
  b.openElement tag

/-- The start tag of a heading, which closes a heading that is innermost. -/
def startHeading (b : Builder) (tag : Tag) : Builder :=
  let b := b.leaveParagraph
  (if Vocabulary.headings.contains b.currentName then b.pop else b).openElement tag

/-- The start tag of an anchor, which ends the anchor before it. -/
def startAnchor (b : Builder) (tag : Tag) : Builder :=
  let b := match b.formattingNamed "a" with
    | some anchor =>
      let b := b.endFormatting "a"
      { b with stack := b.stack.erase anchor, formatting := b.formatting.erase (some anchor) }
    | none => b
  b.reconstruct.openFormatting tag

/-- The start tag of text without line breaks, which ends such text before it. -/
def startNobr (b : Builder) (tag : Tag) : Builder :=
  let b := b.reconstruct
  let b := if b.inScope .ordinary "nobr" then (b.endFormatting "nobr").reconstruct else b
  b.openFormatting tag

/-- The start tag of an element without content that counts as text. -/
def startInline (b : Builder) (tag : Tag) : Builder := (b.reconstruct.openVoid tag).keepBody

/-- The start tag of an input field. A hidden one leaves the choice of frames open. -/
def startInput (b : Builder) (tag : Tag) : Builder :=
  { b.startInline tag with framesetOk := b.framesetOk && isHidden tag }

/-- The start tag of a rule. -/
def startRule (b : Builder) (tag : Tag) : Builder := (b.leaveParagraph.openVoid tag).keepBody

/-- The text before the field of a search form. -/
def searchPrompt : String := "This is a searchable index. Enter search keywords: "

/-- Text in ordinary content. -/
def textInBody (b : Builder) (text : String) : Builder :=
  if text = String.ofList [nullChar] then b
  else
    let b := b.reconstruct.addText text
    if text.toList.any (!isSpace ·) then b.keepBody else b

/-- An old search field stands for a form with two rules and a labelled field. -/
def startSearch (b : Builder) (tag : Tag) : Builder :=
  if b.formElement.isSome then b
  else
    let action := (tag.attributes.find? "action").toList.map fun value => ("action", value)
    let prompt := (tag.attributes.find? "prompt").getD searchPrompt
    let rest := Assoc.put "name" "isindex"
      (Assoc.without "prompt" (Assoc.without "action" tag.attributes))
    let b := b.startForm { name := "form", attributes := action }
    let b := b.startRule { name := "hr" }
    let b := b.reconstruct.openNamed "label"
    let b := b.textInBody prompt
    let b := b.startInput { name := "input", attributes := rest, selfClosing := tag.selfClosing }
    let b := b.endOther "label"
    let b := b.startRule { name := "hr" }
    b.endForm

/-- Modes inside a table. -/
def tableModes : List Mode := [.table, .caption, .columnGroup, .tableBody, .row, .cell]

/-- The start tag of a selection. -/
def startSelect (b : Builder) (tag : Tag) : Builder :=
  let b := (b.reconstruct.openElement tag).keepBody
  b.goto (if tableModes.contains b.mode then .selectInTable else .select)

/-- The start tag of an option outside a selection. -/
def startOption (b : Builder) (tag : Tag) : Builder :=
  let b := if b.currentName = "option" then (b.endTag "option").1 else b
  b.reconstruct.openElement tag

/-- The start tag of a part of an annotated text. -/
def startAnnotation (b : Builder) (tag : Tag) : Builder :=
  (if b.inScope .ordinary "ruby" then b.popImplied "" else b).openElement tag

/-- A tag of an SVG element with the capitals of its attribute names. -/
def svgAttributes (tag : Tag) : Tag :=
  { tag with attributes := Assoc.ofPairs (tag.attributes.map fun entry =>
      (Vocabulary.restoreCase Vocabulary.svgAttributeNames entry.1, entry.2)) }

/-- A tag of a MathML element with the capitals of its attribute names. -/
def mathAttributes (tag : Tag) : Tag :=
  { tag with attributes := Assoc.ofPairs (tag.attributes.map fun entry =>
      (Vocabulary.restoreCase Vocabulary.mathAttributeNames entry.1, entry.2)) }

/-- Blocks that close a paragraph. -/
def paragraphEnders : List String := [
  "address", "article", "aside", "blockquote", "center", "details", "dir", "div", "dl", "fieldset",
  "figcaption", "figure", "footer", "header", "hgroup", "main", "menu", "nav", "ol", "p",
  "section", "summary", "ul"]

/-- Elements that only stand in their own places. -/
def misplacedNames : List String := [
  "caption", "col", "colgroup", "frame", "head", "tbody", "td", "tfoot", "th", "thead", "tr"]

/-- Elements of the head that are taken in the body as in the head. -/
def headNamesInBody : List String := [
  "base", "basefont", "bgsound", "command", "link", "meta", "script", "style", "title"]

/-- The start tag of an element in ordinary content that is neither a plain
block nor a formatting element. -/
def startParticular (b : Builder) (tag : Tag) : Reply :=
  match tag.name with
  | "html" => (b.mergeRoot tag).done
  | "body" => (b.startBody tag).done
  | "frameset" => (b.startFrameset tag).done
  | "pre" => { (b.openBlock tag).keepBody with dropNewline := true }.done
  | "listing" => { (b.openBlock tag).keepBody with dropNewline := true }.done
  | "form" => (b.startForm tag).done
  | "li" => (b.startItem tag).done
  | "dd" => (b.startItem tag).done
  | "dt" => (b.startItem tag).done
  | "plaintext" => { b.openBlock tag with request := some .plain }.done
  | "a" => (b.startAnchor tag).done
  | "nobr" => (b.startNobr tag).done
  | "button" =>
    if b.inScope .ordinary "button" then (b.endBlock "button").again
    else (b.reconstruct.openElement tag).keepBody.done
  | "xmp" => (b.leaveParagraph.reconstruct.keepBody.openRaw tag .raw).done
  | "table" =>
    (((if b.oldRules then b else b.leaveParagraph).openElement tag).keepBody.goto .table).done
  | "input" => (b.startInput tag).done
  | "hr" => (b.startRule tag).done
  | "image" => (b.startInline { tag with name := "img" }).done
  | "isindex" => (b.startSearch tag).done
  | "textarea" =>
    { b.openElement tag with
      request := some .escapable, dropNewline := true, framesetOk := false }.done
  | "iframe" => (b.keepBody.openRaw tag .raw).done
  | "noscript" =>
    (if b.fragment then b.openRaw tag .raw else b.reconstruct.openElement tag).done
  | "noembed" => (b.openRaw tag .raw).done
  | "noframes" => (b.openRaw tag .raw).done
  | "select" => (b.startSelect tag).done
  | "rp" => (b.startAnnotation tag).done
  | "rt" => (b.startAnnotation tag).done
  | "option" => (b.startOption tag).done
  | "optgroup" => (b.startOption tag).done
  | "math" => (b.reconstruct.openForeign .mathml (mathAttributes tag)).done
  | "svg" => (b.reconstruct.openForeign .svg (svgAttributes tag)).done
  | _ => (b.reconstruct.openElement tag).done

/-- A start tag in ordinary content. -/
def startInBody (b : Builder) (tag : Tag) : Reply :=
  if headNamesInBody.contains tag.name then b.startInHead tag
  else if paragraphEnders.contains tag.name then (b.openBlock tag).done
  else if Vocabulary.headings.contains tag.name then (b.startHeading tag).done
  else if tag.name ≠ "a" && tag.name ≠ "nobr" && formattingNames.contains tag.name then
    (b.reconstruct.openFormatting tag).done
  else if objectNames.contains tag.name then
    ((b.reconstruct.openElement tag).mark.keepBody).done
  else if ["area", "br", "embed", "img", "keygen", "wbr"].contains tag.name then
    (b.startInline tag).done
  else if ["param", "source", "track"].contains tag.name then (b.openVoid tag).done
  else if misplacedNames.contains tag.name then b.done
  else b.startParticular tag

/-! ## Tables -/

/-- Close elements back to the table. -/
def popToTable (b : Builder) : Builder := b.popTo ["table", "html"]

/-- Take a start tag as in ordinary content, moving new content out of the table. -/
def startOutsideTable (b : Builder) (tag : Tag) : Reply :=
  let (b, _) := ({ b with fosters := true }).startInBody tag
  ({ b with fosters := false }).done

/-- A start tag directly in a table. -/
def startInTable (b : Builder) (tag : Tag) : Reply :=
  match tag.name with
  | "html" => (b.mergeRoot tag).done
  | "caption" => ((b.popToTable.mark.openElement tag).goto .caption).done
  | "colgroup" => ((b.popToTable.openElement tag).goto .columnGroup).done
  | "col" => ((b.popToTable.openNamed "colgroup").goto .columnGroup).again
  | "tbody" => ((b.popToTable.openElement tag).goto .tableBody).done
  | "tfoot" => ((b.popToTable.openElement tag).goto .tableBody).done
  | "thead" => ((b.popToTable.openElement tag).goto .tableBody).done
  | "td" => ((b.popToTable.openNamed "tbody").goto .tableBody).again
  | "th" => ((b.popToTable.openNamed "tbody").goto .tableBody).again
  | "tr" => ((b.popToTable.openNamed "tbody").goto .tableBody).again
  | "table" =>
    let (b, _) := b.endTag "table"
    if b.fragment then b.done else b.again
  | "style" => b.startInHead tag
  | "script" => b.startInHead tag
  | "input" => if isHidden tag then (b.openVoid tag).done else b.startOutsideTable tag
  | "form" =>
    if b.formElement.isSome then b.done
    else
      let b := b.openElement tag
      ({ b with formElement := some b.current }).pop.done
  | _ => b.startOutsideTable tag

/-- Parts of a table that end a caption or a cell. -/
def tablePartNames : List String := [
  "caption", "col", "colgroup", "tbody", "td", "tfoot", "th", "thead", "tr"]

/-- A start tag in a caption. -/
def startInCaption (b : Builder) (tag : Tag) : Reply :=
  if tag.name = "html" then (b.mergeRoot tag).done
  else if tablePartNames.contains tag.name then b.leaveCaption
  else b.startInBody tag

/-- A start tag in a group of columns. -/
def startInColumnGroup (b : Builder) (tag : Tag) : Reply :=
  if tag.name = "html" then (b.mergeRoot tag).done
  else if tag.name = "col" then (b.openVoid tag).done
  else b.leaveColumnGroup

/-- Open a row in a group of rows. -/
def openRow (b : Builder) (tag : Tag) : Builder := (b.popToRowGroup.openElement tag).goto .row

/-- A start tag in a group of rows. -/
def startInTableBody (b : Builder) (tag : Tag) : Reply :=
  match tag.name with
  | "html" => (b.mergeRoot tag).done
  | "tr" => (b.openRow tag).done
  | "td" => (b.openRow { name := "tr" }).again
  | "th" => (b.openRow { name := "tr" }).again
  | name => if tablePartNames.contains name then b.leaveRowGroup else b.startInTable tag

/-- A start tag in a row. -/
def startInRow (b : Builder) (tag : Tag) : Reply :=
  if tag.name = "html" then (b.mergeRoot tag).done
  else if tag.name = "td" || tag.name = "th" then
    (((b.popToRow.openElement tag).goto .cell).mark).done
  else if tablePartNames.contains tag.name then b.leaveRow
  else b.startInTable tag

/-- A start tag in a cell. -/
def startInCell (b : Builder) (tag : Tag) : Reply :=
  if tag.name = "html" then (b.mergeRoot tag).done
  else if tablePartNames.contains tag.name then
    if b.anyInScope .table ["td", "th"] then b.leaveCell.again else (b.expect false).done
  else b.startInBody tag

/-! ## Selections and frames -/

/-- Close the innermost element if it has this name. -/
def popIf (b : Builder) (name : String) : Builder := if b.currentName = name then b.pop else b

/-- A start tag in a selection. -/
def startInSelect (b : Builder) (tag : Tag) : Reply :=
  match tag.name with
  | "html" => (b.mergeRoot tag).done
  | "option" => ((b.popIf "option").openElement tag).done
  | "optgroup" => (((b.popIf "option").popIf "optgroup").openElement tag).done
  | "select" => b.endSelect.done
  | "script" => b.startInHead tag
  | name =>
    if ["input", "keygen", "textarea"].contains name then
      if b.inScope .select "select" then b.endSelect.again else (b.expect false).done
    else b.done

/-- A start tag in a frame set. -/
def startInFrameset (b : Builder) (tag : Tag) : Reply :=
  match tag.name with
  | "html" => (b.mergeRoot tag).done
  | "frameset" => (b.openElement tag).done
  | "frame" => (b.openVoid tag).done
  | "noframes" => b.startInBody tag
  | _ => b.done

/-! ## Any mode -/

/-- A start tag in the current mode. -/
def startTag (b : Builder) (tag : Tag) : Reply :=
  match b.mode with
  | .initial => { b with oldRules := true, mode := .beforeHtml }.again
  | .beforeHtml => b.openRoot.again
  | .beforeHead =>
    if tag.name = "html" then (b.mergeRoot tag).done
    else if tag.name = "head" then (b.openHead tag).done
    else (b.openHead { name := "head" }).again
  | .head => b.startInHead tag
  | .headNoscript => b.startInHeadNoscript tag
  | .afterHead => b.startAfterHead tag
  | .body => b.startInBody tag
  | .text => (b.expect false).done
  | .table => b.startInTable tag
  | .tableText => b.flushTableText.again
  | .caption => b.startInCaption tag
  | .columnGroup => b.startInColumnGroup tag
  | .tableBody => b.startInTableBody tag
  | .row => b.startInRow tag
  | .cell => b.startInCell tag
  | .select => b.startInSelect tag
  | .selectInTable =>
    if endsSelection.contains tag.name then b.endSelect.again else b.startInSelect tag
  | .afterBody =>
    if tag.name = "html" then (b.mergeRoot tag).done else (b.goto .body).again
  | .frameset => b.startInFrameset tag
  | .afterFrameset =>
    if tag.name = "html" then (b.mergeRoot tag).done
    else if tag.name = "noframes" then b.startInHead tag
    else b.done
  | .afterAfterBody =>
    if tag.name = "html" then (b.mergeRoot tag).done else (b.goto .body).again
  | .afterAfterFrameset =>
    if tag.name = "html" then (b.mergeRoot tag).done
    else if tag.name = "noframes" then b.startInHead tag
    else b.done

/-- Close foreign elements back to one whose content is HTML or text. -/
def leaveForeign (b : Builder) : Builder :=
  { b with stack := b.stack.dropWhile fun handle =>
      decide ((b.label handle).space ≠ .html) && !b.takesHtml handle && !b.takesText handle }

/-- A start tag in foreign content. -/
def startForeign (b : Builder) (tag : Tag) : Reply :=
  if Vocabulary.breaksOut tag then b.leaveForeign.again
  else
    let space := (b.label b.current).space
    let tag := match space with
      | .mathml => mathAttributes tag
      | .svg =>
        { svgAttributes tag with name := Vocabulary.restoreCase Vocabulary.svgElementNames tag.name }
      | _ => tag
    (b.openForeign space tag).done

end Winnow.Html.Builder
