import Winnow.Html.Construction.Builder

/-!
# Formatting elements

Formatting elements are continued after the block that they were opened in has
ended. The list of those to be continued is kept apart from the stack of open
elements; markers in it keep the formatting outside a cell or an object from
reaching inside. An end tag that crosses the start of a block splits the
formatting element in two.
-/

namespace Winnow.Html.Builder

/-! ## The list of formatting elements -/

/-- The entries after the latest marker, the latest first. -/
def sinceMarker : List (Option Handle) → List Handle
  | some handle :: rest => handle :: sinceMarker rest
  | _ => []

/-- The latest formatting element of this name after the latest marker. -/
def formattingNamed (b : Builder) (tag : String) : Option Handle :=
  (sinceMarker b.formatting).find? fun handle => b.name handle == tag

/-- Put a marker. -/
def mark (b : Builder) : Builder := { b with formatting := none :: b.formatting }

/-- Drop the entries back to the latest marker with the marker. -/
def clearToMarker (b : Builder) : Builder :=
  { b with formatting := (b.formatting.dropWhile (·.isSome)).drop 1 }

/-- Have two elements the same name and the same attributes in any order? -/
def sameFormat (left right : Label) : Bool :=
  left.tag == right.tag && decide (left.space = right.space) &&
    left.attributes.length == right.attributes.length &&
    left.attributes.all fun entry => right.attributes.find? entry.1 == some entry.2

/-- At most three equal formatting elements are continued: drop the earliest of
three that equal a new one. -/
def dropFourth (b : Builder) (handle : Handle) : Builder :=
  let equal := (sinceMarker b.formatting).filter fun other =>
    sameFormat (b.label other) (b.label handle)
  match equal[2]? with
  | some earliest => { b with formatting := b.formatting.erase (some earliest) }
  | none => b

/-- Open a formatting element. -/
def openFormatting (b : Builder) (tag : Tag) : Builder :=
  let b := b.openElement tag
  let b := b.dropFourth b.current
  { b with formatting := some b.current :: b.formatting }

/-- Open copies of formatting elements, the earliest first. Gives the copies
with the latest first. -/
def reopen (b : Builder) : List Handle → List (Option Handle) → Builder × List (Option Handle)
  | [], copies => (b, copies)
  | handle :: rest, copies =>
    let b := b.openLabel (b.label handle)
    b.reopen rest (some b.current :: copies)

/-- Is this an entry for an element that has been closed? -/
def isClosed (b : Builder) : Option Handle → Bool
  | some handle => !b.stack.contains handle
  | none => false

/-- Continue the formatting elements that have been closed since the latest
marker or open element of the list. -/
def reconstruct (b : Builder) : Builder :=
  let closed := b.formatting.takeWhile b.isClosed
  let (b, copies) := b.reopen (closed.filterMap id).reverse []
  { b with formatting := copies ++ b.formatting.drop closed.length }

/-! ## End tags -/

/-- Close the innermost element of a name, unless a special element is met first. -/
def closeNamed (b : Builder) (tag : String) : List Handle → Builder
  | [] => b
  | handle :: outer =>
    let label := b.label handle
    if label.tag == tag then
      let b := b.popImplied tag
      { b with stack := (b.stack.dropWhile (· != handle)).drop 1 }
    else if Vocabulary.isSpecial label.space label.tag then b
    else b.closeNamed tag outer

/-- An end tag without a rule of its own. -/
def endOther (b : Builder) (tag : String) : Builder := b.closeNamed tag b.stack

/-- What the way from a block out to a formatting element leaves: the elements
that stay open, the node to move, and how many entries are later than the place
for the new formatting element. -/
structure Chain where
  builder : Builder
  /-- The elements that stay open on the way, the innermost first. -/
  between : List Handle
  node : Handle
  later : Nat

/-- Go from a block outward over at most `count` elements. Elements that are no
formatting elements are closed; the others are replaced by copies, each of which
takes the node met before it. -/
def climb (block : Handle) : Nat → List Handle → Chain → Chain
  | 0, between, chain => { chain with between := chain.between ++ between }
  | _, [], chain => chain
  | count + 1, handle :: outer, chain =>
    let b := chain.builder
    match b.formatting.idxOf? (some handle) with
    | none =>
      let b := { b with stack := b.stack.erase handle }
      climb block count outer { chain with builder := b }
    | some position =>
      let later := if chain.node = block then position - 1 else chain.later
      let (b, copy) := b.create (b.label handle)
      let b := { b with
        formatting := b.formatting.set position (some copy)
        stack := b.stack.map fun other => if other = handle then copy else other }
      let b := b.attach copy chain.node
      climb block count outer {
        builder := b, between := chain.between ++ [copy], node := copy, later := later }

/-- Put a node into an element, or outside the table if the element is part of one. -/
def placeIn (b : Builder) (parent child : Handle) : Builder :=
  let b := { b with store := b.store.detach child }
  if Vocabulary.tableParts.contains (b.name parent) then b.foster child else b.attach parent child

/-- Split a formatting element at a block inside it. `inner` holds the open
elements inside the block, `between` those between the block and the formatting
element, and `outer` those outside. -/
def splitAtBlock (b : Builder) (element block : Handle) (inner between outer : List Handle) :
    Builder :=
  let chain := climb block 3 between {
    builder := b, between := [], node := block,
    later := (b.formatting.idxOf? (some element)).getD 0 }
  let b := chain.builder.placeIn (outer.headD 0) chain.node
  let (b, copy) := b.create (b.label element)
  let b := (b.moveContent block copy).attach block copy
  { b with
    formatting := (b.formatting.erase (some element)).insertIdx chain.later (some copy)
    stack := inner ++ copy :: block :: chain.between ++ outer }

/-- The end tag of a formatting element, in at most `rounds` rounds. -/
def endFormattingIn (b : Builder) (tag : String) : Nat → Builder
  | 0 => b
  | rounds + 1 =>
    match b.formattingNamed tag with
    | none => b.endOther tag
    | some element =>
      if !b.stack.contains element then
        { b with formatting := b.formatting.erase (some element) }
      else if !b.inScope .ordinary tag then b.endOther tag
      else
        let inside := b.stack.takeWhile (· != element)
        let outer := (b.stack.dropWhile (· != element)).drop 1
        match inside.reverse.find? fun handle =>
            Vocabulary.isSpecial (b.label handle).space (b.label handle).tag with
        | none =>
          { b with stack := outer, formatting := b.formatting.erase (some element) }
        | some block =>
          let inner := inside.takeWhile (· != block)
          let between := (inside.dropWhile (· != block)).drop 1
          (b.splitAtBlock element block inner between outer).endFormattingIn tag rounds

/-- The end tag of a formatting element. -/
def endFormatting (b : Builder) (tag : String) : Builder := b.endFormattingIn tag 8

end Winnow.Html.Builder
