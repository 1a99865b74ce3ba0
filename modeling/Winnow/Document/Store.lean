import Winnow.Document.Tree
import Winnow.Fault

/-!
# Stores of linked nodes

A document that is being edited is a store of nodes named by handles. Each node
records its parent and its children, and every operation keeps the two records
in step. An edit that is refused part of the way returns the store it left
behind together with the fault.
-/

namespace Winnow

/-- The name of a node in a store: its number in order of creation. -/
abbrev Handle := Nat

/-- A node with its links. -/
structure Cell where
  label : Label
  parent : Option Handle := none
  children : List Handle := []
  deriving Repr

/-- Nodes in order of creation. -/
structure Store where
  cells : Array Cell := #[]

namespace Store

/-- The node behind a handle. -/
def cell? (store : Store) (handle : Handle) : Option Cell := store.cells[handle]?

/-- What a node is; a handle without a node reads as an empty text. -/
def label (store : Store) (handle : Handle) : Label :=
  ((store.cell? handle).map (·.label)).getD (.ofText "")

/-- The parent of a node. -/
def parent (store : Store) (handle : Handle) : Option Handle :=
  (store.cell? handle).bind (·.parent)

/-- The children of a node in order. -/
def children (store : Store) (handle : Handle) : List Handle :=
  ((store.cell? handle).map (·.children)).getD []

/-- Change one node. -/
def update (store : Store) (handle : Handle) (change : Cell → Cell) : Store :=
  { cells := store.cells.modify handle change }

/-- Add a node without links. -/
def add (store : Store) (label : Label) : Store × Handle :=
  ({ cells := store.cells.push { label := label } }, store.cells.size)

/-- Add a node whose name may come from outside, and so may be empty. -/
def new (store : Store) (label : Label) : Except Fault (Store × Handle) :=
  if label.tag.isEmpty then .error .emptyTagName else .ok (store.add label)

/-- Replace the attributes of a node. -/
def setAttributes (store : Store) (handle : Handle) (attributes : Attributes) : Store :=
  store.update handle fun cell => { cell with label := { cell.label with attributes } }

/-- Record a parent. -/
def setParent (store : Store) (handle : Handle) (parent : Option Handle) : Store :=
  store.update handle fun cell => { cell with parent := parent }

/-- Record the children. -/
def setChildren (store : Store) (handle : Handle) (children : List Handle) : Store :=
  store.update handle fun cell => { cell with children := children }

/-! ## Edits -/

/-- Remove a child and clear its parent; a node that is no child is left alone. -/
def removeChild (store : Store) (parent child : Handle) : Store :=
  if (store.children parent).contains child then
    (store.setChildren parent ((store.children parent).erase child)).setParent child none
  else store

/-- Take a node out of its parent. -/
def detach (store : Store) (handle : Handle) : Store :=
  match store.parent handle with
  | some parent => store.removeChild parent handle
  | none => store

/-- Move a node to the end of the children of another. -/
def append (store : Store) (parent child : Handle) : Store :=
  let store := (store.detach child).setParent child (some parent)
  store.setChildren parent (store.children parent ++ [child])

/-- A list with an item put before the first occurrence of a reference. -/
def placeBefore (item reference : Handle) : List Handle → List Handle
  | [] => []
  | h :: rest =>
    if h = reference then item :: h :: rest else h :: placeBefore item reference rest

/-- Move a node to the place before one of the children. Nothing happens if the
reference is no child. A node cannot be put before itself: it is detached first,
and then the reference is missing. -/
def insertBefore (store : Store) (parent item reference : Handle) : Store × Option Fault :=
  if (store.children parent).contains reference then
    let store := store.detach item
    if (store.children parent).contains reference then
      let store := store.setParent item (some parent)
      (store.setChildren parent (placeBefore item reference (store.children parent)), none)
    else (store, some .notAChild)
  else (store, none)

/-- Move nodes one after the other to the place before a child. -/
def insertAllBefore (store : Store) (parent : Handle) :
    List Handle → Handle → Store × Option Fault
  | [], _ => (store, none)
  | item :: rest, reference =>
    match store.insertBefore parent item reference with
    | (store, none) => store.insertAllBefore parent rest reference
    | (store, some fault) => (store, some fault)

/-- Put the children of a node in its place. -/
def unwrap (store : Store) (handle : Handle) : Store × Option Fault :=
  match store.parent handle with
  | none => (store, none)
  | some parent =>
    match store.insertAllBefore parent (store.children handle) handle with
    | (store, none) => (store.removeChild parent handle, none)
    | (store, some fault) => (store, some fault)

/-- Replace the children of a node by one text node, or by nothing for an empty text. -/
def setText (store : Store) (handle : Handle) (text : String) : Store :=
  let store := (store.children handle).foldl (fun store child => store.removeChild handle child)
    store
  if text.isEmpty then store
  else
    let (store, child) := store.add (.ofText text)
    store.append handle child

/-! ## Views -/

/-- The joined data of the text children. -/
def directText (store : Store) (handle : Handle) : String :=
  String.join (((store.children handle).filter fun child => (store.label child).isText).map
    fun child => (store.label child).text)

/-- The first child with a name. -/
def findChild (store : Store) (handle : Handle) (tag : String) : Option Handle :=
  (store.children handle).find? fun child => (store.label child).tag == tag

/-- The first child that is an element. -/
def rootElement (store : Store) (handle : Handle) : Option Handle :=
  (store.children handle).find? fun child => (store.label child).isElement

/-- The topmost node above a node, going up at most `fuel` steps. -/
def topFrom (store : Store) : Nat → Handle → Handle
  | 0, handle => handle
  | fuel + 1, handle =>
    match store.parent handle with
    | some parent => store.topFrom fuel parent
    | none => handle

/-- The topmost node above a node. -/
def top (store : Store) (handle : Handle) : Handle := store.topFrom store.cells.size handle

/-- A node is connected while a document is at the top above it. -/
def isConnected (store : Store) (handle : Handle) : Bool :=
  (store.label (store.top handle)).tag == "#document"

/-- The elements met by a walk over a stack of pending nodes, in at most `fuel` visits. -/
def walk (store : Store) : Nat → List Handle → List Handle
  | 0, _ => []
  | _, [] => []
  | fuel + 1, handle :: pending =>
    let rest := store.walk fuel (store.children handle ++ pending)
    if (store.label handle).isElement then handle :: rest else rest

/-- The elements at and below a node in document order. -/
def elements (store : Store) (handle : Handle) : List Handle :=
  store.walk store.cells.size [handle]

/-- The tree below a node, down to a depth. -/
def treeAt (store : Store) : Nat → Handle → Tree
  | 0, handle => .node (store.label handle) []
  | depth + 1, handle =>
    .node (store.label handle) ((store.children handle).map (store.treeAt depth))

/-- The tree below a node. -/
def toTree (store : Store) (handle : Handle) : Tree := store.treeAt store.cells.size handle

mutual

/-- Add the nodes of a tree below a parent. -/
def addTree (store : Store) (parent : Handle) : Tree → Store
  | .node label children =>
    let (store, handle) := store.add label
    (store.append parent handle).addTrees handle children

/-- Add the nodes of a forest below a parent. -/
def addTrees (store : Store) (parent : Handle) : List Tree → Store
  | [] => store
  | tree :: rest => (store.addTree parent tree).addTrees parent rest

end

/-- The store of a tree, whose root has the first handle. -/
def ofTree : Tree → Store
  | .node label children => (Store.add {} label).1.addTrees 0 children

/-- The short description of a node in logs. -/
def describe (store : Store) (handle : Handle) : String :=
  let label := store.label handle
  let start := String.ofList (label.text.toList.take 30)
  if label.tag == "#text" then "Node(#text='" ++ start ++ "')"
  else if label.tag == "#comment" then "Node(#comment='" ++ start ++ "')"
  else "Node(<" ++ label.tag ++ ">, children=" ++
    toString (store.children handle).length ++ ")"

end Store

end Winnow
