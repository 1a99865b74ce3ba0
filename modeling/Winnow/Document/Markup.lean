import Winnow.Document.Store
import Winnow.Text.Blank

/-!
# Written documents

The text of a tree as markup: start tags with quoted attributes, escaped text,
and end tags except for void elements. Text directly inside an HTML raw-text
element is written as it is. `Tree.html` keeps the work still to do on a stack;
`Tree.render` is the plain recursion over the tree.
-/

namespace Winnow

/-- HTML elements without content and end tag. -/
def voidElements : List String := [
  "area", "base", "basefont", "bgsound", "br", "col", "embed", "frame", "hr", "img", "input",
  "keygen", "link", "meta", "param", "source", "track", "wbr"]

/-- HTML elements whose text is written without escapes. -/
def rawTextElements : List String := [
  "style", "script", "xmp", "iframe", "noembed", "noframes", "plaintext"]

namespace Label

/-- An HTML element without content and end tag. -/
def isVoid (label : Label) : Bool :=
  decide (label.space = .html) && voidElements.contains label.tag

/-- An HTML element whose text is written without escapes. -/
def isRawText (label : Label) : Bool :=
  decide (label.space = .html) && rawTextElements.contains label.tag

end Label

namespace Markup

/-- How a character is written in text. -/
def escapeTextChar (c : Char) : List Char :=
  if c = '&' then "&amp;".toList
  else if c.toNat = 0xa0 then "&nbsp;".toList
  else if c = '<' then "&lt;".toList
  else if c = '>' then "&gt;".toList
  else [c]

/-- How a character is written in an attribute value. -/
def escapeValueChar (c : Char) : List Char :=
  if c = '&' then "&amp;".toList
  else if c.toNat = 0xa0 then "&nbsp;".toList
  else if c = '"' then "&quot;".toList
  else [c]

/-- Text with its special characters written as references. -/
def escapeText (text : String) : String := String.ofList (text.toList.flatMap escapeTextChar)

/-- An attribute value with its special characters written as references. -/
def escapeValue (value : String) : String := String.ofList (value.toList.flatMap escapeValueChar)

/-- An attribute with the blank before it. -/
def attributeText (name : String) (value : Option String) : String :=
  " " ++ name ++ "=\"" ++ escapeValue (value.getD "") ++ "\""

/-- The start tag of an element. -/
def startTag (name : String) (attributes : Attributes) : String :=
  "<" ++ name ++ String.join (attributes.map fun entry => attributeText entry.1 entry.2) ++ ">"

/-- The end tag of an element. -/
def endTag (name : String) : String := "</" ++ name ++ ">"

end Markup

namespace Tree

open Markup

/-! ## By recursion -/

mutual

/-- The markup of a tree whose parent is, or is not, a raw-text element. -/
def render (raw : Bool) : Tree → String
  | node label children =>
    if label.tag = "#document" then renderAll false children
    else if label.tag = "#text" then if raw then label.text else escapeText label.text
    else if label.tag = "#comment" then "<!--" ++ label.text ++ "-->"
    else if label.isVoid then startTag label.tag label.attributes
    else
      startTag label.tag label.attributes ++ renderAll label.isRawText children ++
        endTag label.tag

/-- The markup of a list of siblings. -/
def renderAll (raw : Bool) : List Tree → String
  | [] => ""
  | tree :: rest => render raw tree ++ renderAll raw rest

end

/-! ## With a stack -/

/-- Work still to do: a tree to write, under a raw-text parent or not, or an end tag. -/
inductive Work where
  | opening (raw : Bool) (tree : Tree)
  | closing (text : String)

/-- A bound on the steps that a piece of work takes. -/
def Work.weight : Work → Nat
  | opening _ tree => 2 * tree.size
  | closing _ => 1

/-- The total weight of a stack. -/
def Work.total : List Work → Nat
  | [] => 0
  | work :: stack => work.weight + Work.total stack

/-- Trees as work. -/
def Work.trees (raw : Bool) (trees : List Tree) : List Work := trees.map (.opening raw)

theorem Work.total_cons (work : Work) (stack : List Work) :
    Work.total (work :: stack) = work.weight + Work.total stack := rfl

theorem Work.total_append (front back : List Work) :
    Work.total (front ++ back) = Work.total front + Work.total back := by
  induction front with
  | nil => simp [Work.total]
  | cons work rest ih => simp only [List.cons_append, Work.total, ih]; omega

theorem Work.total_trees (raw : Bool) (trees : List Tree) :
    Work.total (Work.trees raw trees) = 2 * sizeAll trees := by
  induction trees with
  | nil => rfl
  | cons tree rest ih =>
    simp only [Work.trees, List.map_cons, Work.total, Work.weight, sizeAll] at ih ⊢
    omega

/-- The pieces of markup that a stack of work stands for. -/
def write : List Work → List String
  | [] => []
  | .closing text :: stack => text :: write stack
  | .opening raw (node label children) :: stack =>
    if label.tag = "#document" then write (Work.trees false children ++ stack)
    else if label.tag = "#text" then
      (if raw then label.text else escapeText label.text) :: write stack
    else if label.tag = "#comment" then ("<!--" ++ label.text ++ "-->") :: write stack
    else if label.isVoid then startTag label.tag label.attributes :: write stack
    else
      startTag label.tag label.attributes ::
        write (Work.trees label.isRawText children ++ .closing (endTag label.tag) :: stack)
termination_by stack => Work.total stack
decreasing_by
  all_goals
    simp only [Work.total_append, Work.total_trees, Work.total_cons, Work.weight, size]
    omega

/-- The markup of a tree, given whether its parent is a raw-text element. -/
def htmlUnder (raw : Bool) (tree : Tree) : String := String.join (write [.opening raw tree])

/-- The markup of a tree that stands on its own. -/
def html (tree : Tree) : String := tree.htmlUnder false

/-- The markup of what is below the root. -/
def innerHtml (tree : Tree) : String :=
  String.join (tree.children.map (·.htmlUnder tree.label.isRawText))

end Tree

namespace Store

/-- Does the parent of a node hold raw text? -/
def isUnderRaw (store : Store) (handle : Handle) : Bool :=
  match store.parent handle with
  | some parent => (store.label parent).isRawText
  | none => false

/-- The markup of a node. -/
def html (store : Store) (handle : Handle) : String :=
  (store.toTree handle).htmlUnder (store.isUnderRaw handle)

/-- The markup of what is below a node. -/
def innerHtml (store : Store) (handle : Handle) : String := (store.toTree handle).innerHtml

end Store

end Winnow
