import Winnow.Assoc

/-!
# Document trees

A document is a tree of labelled nodes. Elements have a name without a leading
number sign; text, comments and the document itself are nodes named `#text`,
`#comment` and `#document`. Document order is the recursive pre-order; `walk`
produces the same sequence with an explicit stack of pending trees.
-/

namespace Winnow

/-- The vocabulary that an element name belongs to. -/
inductive Namespace where
  | html
  | svg
  | mathml
  | other (name : String)
  deriving DecidableEq, Repr

namespace Namespace

/-- The namespace with a short name; none is that of HTML. -/
def ofName? : Option String → Namespace
  | none => .html
  | some "svg" => .svg
  | some "math" => .mathml
  | some name => .other name

/-- The short name of a namespace. -/
def name? : Namespace → Option String
  | html => none
  | svg => some "svg"
  | mathml => some "math"
  | other name => some name

/-- SVG and MathML elements are foreign. -/
def isForeign : Namespace → Bool
  | svg => true
  | mathml => true
  | _ => false

end Namespace

/-- Attribute names with their values in source order; an absent value prints as an empty one. -/
abbrev Attributes := Assoc (Option String)

/-- What a node is, apart from its place in a tree. -/
structure Label where
  /-- The element name, or one of `#text`, `#comment` and `#document`. -/
  tag : String
  /-- The vocabulary of the name. -/
  space : Namespace := .html
  attributes : Attributes := []
  /-- The data of a text or comment node. -/
  text : String := ""
  deriving DecidableEq, Repr

namespace Label

/-- The label of a text node. -/
def ofText (text : String) : Label := { tag := "#text", text := text }

/-- The label of a comment. -/
def ofComment (text : String) : Label := { tag := "#comment", text := text }

/-- The label of a document. -/
def document : Label := { tag := "#document" }

/-- Names that start with a number sign are not element names. -/
def isElement (label : Label) : Bool := !(label.tag.toList.head? == some '#')

/-- Is this a text node? -/
def isText (label : Label) : Bool := label.tag == "#text"

end Label

/-- A node with everything below it. -/
inductive Tree where
  | node (label : Label) (children : List Tree)
  deriving Repr

namespace Tree

/-- What the root of a tree is. -/
def label : Tree → Label
  | node label _ => label

/-- The trees directly below the root. -/
def children : Tree → List Tree
  | node _ children => children

/-- A text node. -/
def ofText (text : String) : Tree := node (.ofText text) []

/-! ## Document order -/

mutual

/-- A tree and all trees below it, in document order. -/
def preorder : Tree → List Tree
  | node label children => node label children :: preorderAll children

/-- The trees of a forest in document order. -/
def preorderAll : List Tree → List Tree
  | [] => []
  | tree :: rest => preorder tree ++ preorderAll rest

end

/-- The elements of a tree in document order. -/
def elements (tree : Tree) : List Tree :=
  (preorder tree).filter (·.label.isElement)

mutual

/-- The number of nodes of a tree. -/
def size : Tree → Nat
  | node _ children => sizeAll children + 1

/-- The number of nodes of a forest. -/
def sizeAll : List Tree → Nat
  | [] => 0
  | tree :: rest => size tree + sizeAll rest

end

theorem sizeAll_append (front back : List Tree) :
    sizeAll (front ++ back) = sizeAll front + sizeAll back := by
  induction front with
  | nil => simp [sizeAll]
  | cons tree rest ih => simp only [List.cons_append, sizeAll, ih]; omega

/-- The elements met by a walk that keeps the trees still to visit on a stack. -/
def walk : List Tree → List Tree
  | [] => []
  | node label children :: pending =>
    if label.isElement then node label children :: walk (children ++ pending)
    else walk (children ++ pending)
termination_by pending => sizeAll pending
decreasing_by all_goals simp only [sizeAll_append, sizeAll, size]; omega

/-! ## Text -/

/-- The joined data of the text nodes directly below the root. -/
def directText (tree : Tree) : String :=
  String.join ((tree.children.filter (·.label.isText)).map (·.label.text))

/-- Join neighbouring text nodes of one list of siblings. -/
def joinText : List Tree → List Tree
  | [] => []
  | node label children :: rest =>
    match joinText rest with
    | node next below :: others =>
      if label.isText && next.isText then
        node { label with text := label.text ++ next.text } children :: others
      else node label children :: node next below :: others
    | [] => [node label children]

mutual

/-- The tree with neighbouring text nodes joined everywhere. -/
def normalize : Tree → Tree
  | node label children => node label (joinText (normalizeAll children))

/-- `normalize` on every tree of a forest. -/
def normalizeAll : List Tree → List Tree
  | [] => []
  | tree :: rest => normalize tree :: normalizeAll rest

end

mutual

/-- Every node with its depth, in document order. -/
def outline (depth : Nat) : Tree → List (Nat × Label)
  | node label children => (depth, label) :: outlineAll (depth + 1) children

/-- `outline` of every tree of a forest. -/
def outlineAll (depth : Nat) : List Tree → List (Nat × Label)
  | [] => []
  | tree :: rest => outline depth tree ++ outlineAll depth rest

end

/-- The first child that is an element: the root element of a document. -/
def rootElement? (tree : Tree) : Option Tree :=
  tree.children.find? (·.label.isElement)

end Tree

end Winnow
