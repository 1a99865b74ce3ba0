import Winnow.Document.Tree
import Winnow.Html.Construction
import Winnow.Policy
import Winnow.Text.Lowercase

/-!
# Rules from a reference document

A document can stand for the rules that allow exactly its markup: one tag rule
for every element, and one attribute rule for every attribute name that occurs
on elements of a name.
-/

namespace Winnow

/-- What a document uses: how often each element name occurs, and which
attribute names occur with it. All names are in lower case. -/
structure Inventory where
  elements : Assoc Nat := []
  attributes : Assoc (List String) := []

namespace Inventory

/-- Count an element. -/
def addElement (inventory : Inventory) (label : Label) : Inventory :=
  let tag := Text.lower label.tag
  { elements := inventory.elements.put tag ((inventory.elements.find? tag).getD 0 + 1)
    attributes := label.attributes.foldl
      (fun table entry => Policy.grant table tag (Text.lower entry.1)) inventory.attributes }

/-- The inventory of a document with a root element. -/
def ofDocument (document : Tree) : Inventory :=
  match document.rootElement? with
  | some root => (root.elements.map (·.label)).foldl addElement {}
  | none => {}

/-- The rule lines: tag rules first, grouped by name in order of first occurrence. -/
def lines (inventory : Inventory) : List String :=
  inventory.elements.flatMap (fun entry => List.replicate entry.2 entry.1) ++
    inventory.attributes.flatMap fun entry => entry.2.map fun name => entry.1 ++ "|" ++ name

/-- How many elements belong to the structure that every document has. -/
def structuralCount (inventory : Inventory) : Nat :=
  (inventory.elements.filter fun entry => isStructural entry.1).foldl (· + ·.2) 0

end Inventory

/-- The rule lines of a reference document, with the log lines of deriving them. -/
def Reference.ofText (text : String) : Except Fault (List String × List String) := do
  let document ← Html.parse text
  let inventory := Inventory.ofDocument document
  let lines := inventory.lines
  let log := "DEBUG trimhtml.rules: Derived " ++ toString lines.length ++ " rules (" ++
    toString inventory.structuralCount ++ " structural tags)"
  return (lines, if document.rootElement?.isSome then [log] else [])

/-- The rule lines of a reference document. -/
def Reference.rules (text : String) : Except Fault (List String) := do
  return (← Reference.ofText text).1

end Winnow
