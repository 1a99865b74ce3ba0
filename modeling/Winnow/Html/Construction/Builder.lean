import Winnow.Document.Store
import Winnow.Html.Construction.Vocabulary
import Winnow.Html.Lexer

/-!
# The state of tree construction

A builder holds the document made so far, the stack of open elements with the
innermost first, and the mode that says how the next token is taken. The
operations here open and close elements, look through the stack, and place
text; which of them a token calls for is decided elsewhere.
-/

namespace Winnow.Html

/-- How the next token is taken. -/
inductive Mode where
  | initial
  | beforeHtml
  | beforeHead
  | head
  | headNoscript
  | afterHead
  | body
  | text
  | table
  | tableText
  | caption
  | columnGroup
  | tableBody
  | row
  | cell
  | select
  | selectInTable
  | afterBody
  | frameset
  | afterFrameset
  | afterAfterBody
  | afterAfterFrameset
  deriving DecidableEq, Repr

/-- A document under construction. -/
structure Builder where
  /-- Is this the content of a block and not a whole document? Then scripting
  counts as on, attributes with a namespace have it in their names, and content
  moved out of a table does not follow when its parent's content moves. -/
  fragment : Bool := false
  store : Store := {}
  /-- The open elements, the innermost first. -/
  stack : List Handle := []
  /-- The formatting elements to be continued, the latest first; none is a marker. -/
  formatting : List (Option Handle) := []
  mode : Mode := .initial
  /-- The mode after raw text. -/
  textReturn : Mode := .body
  /-- The mode after text in a table. -/
  tableReturn : Mode := .table
  /-- The text met in a table, the latest piece first. -/
  tableTexts : List String := []
  /-- The head element. -/
  headElement : Option Handle := none
  /-- The form that is open. -/
  formElement : Option Handle := none
  /-- May a frame set still take the place of the body? -/
  framesetOk : Bool := true
  /-- Are the rules of old documents in force? -/
  oldRules : Bool := false
  /-- Is content that has no place in a table moved out of it? -/
  fosters : Bool := false
  /-- Is a line feed at the start of the content dropped? -/
  dropNewline : Bool := false
  /-- The content model that the input is to be read with from here on. -/
  request : Option ContentModel := none
  /-- The nodes of a fragment that were moved out of a table. -/
  strays : List Handle := []
  /-- The first fault. -/
  fault : Option Fault := none

namespace Builder

/-! ## Looking at the stack -/

/-- What the node behind a handle is. -/
def label (b : Builder) (handle : Handle) : Label := b.store.label handle

/-- The name of the node behind a handle. -/
def name (b : Builder) (handle : Handle) : String := (b.label handle).tag

/-- The innermost open element, or the document. -/
def current (b : Builder) : Handle := b.stack.headD 0

/-- The name of the innermost open element. -/
def currentName (b : Builder) : String := b.name b.current

/-- The outermost open element. -/
def root (b : Builder) : Handle := b.stack.getLastD 0

/-- The element directly inside the outermost one. -/
def second? (b : Builder) : Option Handle := b.stack.reverse[1]?

/-- Is the innermost open element foreign? -/
def inForeign (b : Builder) : Bool :=
  match b.stack with
  | [] => false
  | handle :: _ => decide ((b.label handle).space ≠ .html)

/-- Going outward, is a target met before the scope ends? -/
def reaches (b : Builder) (scope : Vocabulary.Scope) (target : Handle → Bool) :
    List Handle → Bool
  | [] => false
  | handle :: rest =>
    if target handle then true
    else if scope.bounds (b.label handle).space (b.label handle).tag then false
    else b.reaches scope target rest

/-- Is an HTML element of this name in scope? -/
def inScope (b : Builder) (scope : Vocabulary.Scope) (tag : String) : Bool :=
  b.reaches scope
    (fun handle => decide ((b.label handle).space = .html) && (b.label handle).tag == tag) b.stack

/-- Is one of these HTML elements in scope? -/
def anyInScope (b : Builder) (scope : Vocabulary.Scope) (tags : List String) : Bool :=
  tags.any (b.inScope scope)

/-- Is this element in scope? -/
def handleInScope (b : Builder) (scope : Vocabulary.Scope) (target : Handle) : Bool :=
  b.reaches scope (· == target) b.stack

/-- An element whose text content is ordinary text though the element is foreign. -/
def takesText (b : Builder) (handle : Handle) : Bool :=
  decide ((b.label handle).space = .mathml) &&
    Vocabulary.mathTextNames.contains (b.label handle).tag

/-- A foreign element whose content is HTML. -/
def takesHtml (b : Builder) (handle : Handle) : Bool :=
  let label := b.label handle
  match label.space with
  | .mathml =>
    label.tag == "annotation-xml" &&
      match label.attributes.find? "encoding" with
      | some encoding =>
        ["text/html", "application/xhtml+xml"].contains (Text.asciiLower (encoding.getD ""))
      | none => false
  | .svg => Vocabulary.svgHtmlNames.contains label.tag
  | _ => false

/-! ## Small steps -/

/-- Go to a mode. -/
def goto (b : Builder) (mode : Mode) : Builder := { b with mode := mode }

/-- Note that something stands where only the parts of a document may. -/
def expect (b : Builder) (ok : Bool) : Builder :=
  if ok || b.fragment then b
  else { b with fault := b.fault.or (some .misplacedElement) }

/-- A frame set may no longer take the place of the body. -/
def keepBody (b : Builder) : Builder := { b with framesetOk := false }

/-- Close the innermost element. -/
def pop (b : Builder) : Builder := { b with stack := b.stack.drop 1 }

/-- Close elements until one of these names is innermost. -/
def popTo (b : Builder) (tags : List String) : Builder :=
  { b with stack := b.stack.dropWhile fun handle => !tags.contains (b.name handle) }

/-- Close elements up to and including the first of these names. -/
def popThrough (b : Builder) (tags : List String) : Builder := (b.popTo tags).pop

/-- Close the elements whose end tags may be left out, except those of one name. -/
def popImplied (b : Builder) (except : String) : Builder :=
  { b with stack := b.stack.dropWhile fun handle =>
      Vocabulary.impliedEnds.contains (b.name handle) && b.name handle != except }

/-! ## Placing nodes -/

/-- Put a node at the end of the children of another. -/
def attach (b : Builder) (parent child : Handle) : Builder :=
  { b with store := b.store.append parent child, strays := b.strays.erase child }

/-- Where content goes that has no place in a table: a parent, and the child
before which it goes. -/
def fosterPlace (b : Builder) : Handle × Option Handle :=
  match b.stack.dropWhile fun handle => b.name handle != "table" with
  | table :: outer =>
    match b.store.parent table with
    | some parent => (parent, some table)
    | none => (outer.headD 0, none)
  | [] => (b.root, none)

/-- Put a node outside the table that is open. -/
def foster (b : Builder) (child : Handle) : Builder :=
  match b.fosterPlace with
  | (parent, some table) =>
    { b with
      store := (b.store.insertBefore parent child table).1
      strays := if b.fragment then child :: b.strays else [] }
  | (parent, none) => b.attach parent child

/-- Is new content moved out of a table here? -/
def misplaces (b : Builder) : Bool :=
  b.fosters && Vocabulary.tableParts.contains b.currentName

/-- Put a node where the next node belongs. -/
def place (b : Builder) (child : Handle) : Builder :=
  if b.misplaces then b.foster child else b.attach b.current child

/-- Make a node. -/
def create (b : Builder) (label : Label) : Builder × Handle :=
  let (store, handle) := b.store.add label
  ({ b with store := store }, handle)

/-- Open an element. -/
def openLabel (b : Builder) (label : Label) : Builder :=
  let (b, handle) := b.create label
  let b := b.place handle
  { b with stack := handle :: b.stack }

/-- The part of a name after its first colon, or the whole name. -/
def localName (name : String) : String :=
  match name.toList.dropWhile (· != ':') with
  | _ :: cs => String.ofList cs
  | [] => name

/-- Give an attribute to an element. Of attributes without a namespace that have
the same local name only the latest stays. -/
def setLocal (space : Namespace) (attributes : Attributes) (name value : String) : Attributes :=
  let spaced (name : String) : Bool := decide (space ≠ .html) && Vocabulary.isSpaced name
  if spaced name then attributes.put name (some value)
  else
    let others := List.filter (fun entry =>
      entry.1 == name || spaced entry.1 || localName entry.1 != localName name) attributes
    Assoc.put name (some value) others

/-- The attributes of a tag as those of an element. -/
def attributesOf (b : Builder) (space : Namespace) (attributes : Assoc String) : Attributes :=
  if b.fragment then
    Assoc.ofPairs (attributes.map fun entry =>
      (if space = .html then entry.1 else Vocabulary.expandedName entry.1, some entry.2))
  else attributes.foldl (fun table entry => setLocal space table entry.1 entry.2) []

/-- The element of a start tag. -/
def labelOf (b : Builder) (space : Namespace) (tag : Tag) : Label :=
  { tag := tag.name, space := space, attributes := b.attributesOf space tag.attributes }

/-- Open the element of a start tag. -/
def openElement (b : Builder) (tag : Tag) : Builder := b.openLabel (b.labelOf .html tag)

/-- Open an element that the document does not write. -/
def openNamed (b : Builder) (name : String) : Builder := b.openElement { name := name }

/-- Open an element and close it at once. -/
def openVoid (b : Builder) (tag : Tag) : Builder := (b.openElement tag).pop

/-- Open a foreign element, and close it if its tag closes itself. -/
def openForeign (b : Builder) (space : Namespace) (tag : Tag) : Builder :=
  let b := b.openLabel (b.labelOf space tag)
  if tag.selfClosing then b.pop else b

/-- Open an element with raw content. -/
def openRaw (b : Builder) (tag : Tag) (model : ContentModel) : Builder :=
  { b.openElement tag with request := some model, textReturn := b.mode, mode := .text }

/-- Open the outermost element. -/
def openRoot (b : Builder) : Builder :=
  let (b, handle) := b.create { tag := "html" }
  { b.attach 0 handle with stack := [handle], mode := .beforeHead }

/-- Add text. -/
def addText (b : Builder) (text : String) : Builder :=
  let misplaced := b.misplaces
  let (b, handle) := b.create (.ofText text)
  if misplaced then
    match b.fosterPlace with
    | (parent, some table) => { b with store := (b.store.insertBefore parent handle table).1 }
    | (parent, none) => b.attach parent handle
  else b.attach b.current handle

/-- Add a comment to a node. -/
def addComment (b : Builder) (parent : Handle) (text : String) : Builder :=
  let (b, handle) := b.create (.ofComment text)
  b.attach parent handle

/-- Give an element the attributes that it does not have yet. -/
def addMissing (b : Builder) (handle : Handle) (attributes : Assoc String) : Builder :=
  let present := (b.label handle).attributes
  { b with
    store := b.store.setAttributes handle
      (present ++ (attributes.filter fun entry => !present.has entry.1).map
        fun entry => (entry.1, some entry.2)) }

/-- The children of a node that follow it when its content moves: all of them,
but in a fragment not those that were moved out of a table and the text after them. -/
def followers (b : Builder) (follows : Bool) : List Handle → List Handle
  | [] => []
  | handle :: rest =>
    let follows := if (b.label handle).isText then follows else !b.strays.contains handle
    if follows then handle :: b.followers follows rest else b.followers follows rest

/-- Move the content of one node to another. -/
def moveContent (b : Builder) (source target : Handle) : Builder :=
  let children := b.store.children source
  let moving := b.followers true children
  let store := children.foldl (fun store child => store.removeChild source child) b.store
  let b := { b with store := store }
  moving.foldl (fun b child => b.attach target child) b

/-! ## Modes -/

/-- The mode that an open element calls for when what was inside it has ended. -/
def modeWithin (tag : String) : Option Mode :=
  match tag with
  | "select" => some .select
  | "td" => some .cell
  | "th" => some .cell
  | "tr" => some .row
  | "tbody" => some .tableBody
  | "thead" => some .tableBody
  | "tfoot" => some .tableBody
  | "caption" => some .caption
  | "colgroup" => some .columnGroup
  | "table" => some .table
  | "head" => some .body
  | "body" => some .body
  | "frameset" => some .frameset
  | "html" => some .beforeHead
  | _ => none

/-- Names that call for a mode of their own only at the top of a fragment. -/
def fragmentRoots : List String := ["select", "colgroup", "head", "html"]

/-- Find the mode that the open elements call for, going outward. The outermost
element of a fragment stands for a block. -/
def resetFrom (b : Builder) : List Handle → Builder
  | [] => b
  | [_] => (b.expect false).goto .body
  | handle :: outer =>
    let label := b.label handle
    let b := b.expect (!fragmentRoots.contains label.tag)
    if label.space ≠ .html then b.resetFrom outer
    else match modeWithin label.tag with
      | some mode => b.goto mode
      | none => b.resetFrom outer

/-- Take the mode that the open elements call for. -/
def resetMode (b : Builder) : Builder := b.resetFrom b.stack

end Builder

end Winnow.Html
