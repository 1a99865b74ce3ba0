import Winnow.Enforcement

/-!
# Trimming a tree

The same result as that of a pass over a store, from a plain recursion over the
tree in document order: there is no list of elements made beforehand, no test of
connection and no note of saturation.
-/

namespace Winnow

/-- Budgets used so far: the elements kept of each name and in all. -/
structure Usage where
  used : Assoc Nat := []
  total : Nat := 0
  deriving DecidableEq, Repr

namespace Usage

/-- The elements kept of a name. -/
def count (usage : Usage) (tag : String) : Nat := (usage.used.find? tag).getD 0

/-- Count one more element of a name. -/
def add (usage : Usage) (tag : String) : Usage :=
  { used := usage.used.put tag (usage.count tag + 1), total := usage.total + 1 }

end Usage

namespace Policy

/-- What becomes of an element of a name. -/
inductive Treatment where
  /-- It goes with its content. -/
  | remove
  /-- Its content takes its place. -/
  | unwrap
  /-- It stays, and counts or not. -/
  | keep (counted : Bool)
  deriving DecidableEq, Repr

/-- What becomes of an element of a name when so much has been used. -/
def treatment (policy : Policy) (usage : Usage) (tag : String) : Treatment :=
  if policy.forbids tag then .remove
  else if isStructural tag then .keep false
  else if policy.effectiveBudget tag = 0 then .unwrap
  else if policy.effectiveBudget tag ≤ usage.count tag then .remove
  else .keep true

end Policy

mutual

/-- What a tree is replaced by, and the budgets used after it. -/
def Tree.trim (policy : Policy) (usage : Usage) : Tree → Except Fault (List Tree × Usage)
  | .node label children =>
    if !label.isElement then do
      let (children, usage) ← Tree.trimAll policy usage children
      return ([.node label children], usage)
    else
      let tag := Text.lower label.tag
      match policy.treatment usage tag with
      | .remove => .ok ([], usage)
      | .unwrap => Tree.trimAll policy usage children
      | .keep counted => do
        let attributes ← policy.filterAttributes tag label.attributes
        let label := { label with attributes := attributes }
        let usage := if counted then usage.add tag else usage
        if tag = "style" then
          match ← policy.filterStyleText (Tree.node label children).directText with
          | some text => return ([.node label [.ofText text]], usage)
          | none => return ([], usage)
        else
          let (children, usage) ← Tree.trimAll policy usage children
          return ([.node label children], usage)

/-- What a forest is replaced by, and the budgets used after it. -/
def Tree.trimAll (policy : Policy) (usage : Usage) :
    List Tree → Except Fault (List Tree × Usage)
  | [] => .ok ([], usage)
  | tree :: rest => do
    let (front, usage) ← Tree.trim policy usage tree
    let (back, usage) ← Tree.trimAll policy usage rest
    return (front ++ back, usage)

end

end Winnow
