import Winnow.Attributes
import Winnow.Document.Store

/-!
# Enforcing a policy

One pass over a document. The elements are listed first and then visited in
document order; each is kept, taken out with its content, or replaced by its
content. Elements that an earlier step took out are passed over. Once the
budgets are used up, nothing that has a budget stays.
-/

namespace Winnow

/-- Elements that no end tag closes once they are written. They are never kept. -/
def unclosableTags : List String := ["plaintext"]

/-- How much of the budgets has been used. -/
structure Tally where
  /-- The elements kept of each name. -/
  used : Assoc Nat := []
  /-- The elements kept outside the structure of the document. -/
  total : Nat := 0
  /-- Has everything been used? -/
  saturated : Bool := false
  deriving DecidableEq, Repr

namespace Tally

/-- The elements kept of a name. -/
def count (tally : Tally) (tag : String) : Nat := (tally.used.find? tag).getD 0

/-- Count one more element of a name. -/
def add (tally : Tally) (tag : String) : Tally :=
  { tally with used := tally.used.put tag (tally.count tag + 1), total := tally.total + 1 }

/-- Note whether everything has been used. -/
def settle (tally : Tally) (total : Nat) : Tally :=
  { tally with saturated := tally.saturated || decide (total ≤ tally.total) }

end Tally

namespace Policy

/-- How many elements of a name may stay. -/
def effectiveBudget (policy : Policy) (tag : String) : Nat :=
  if unclosableTags.contains tag then 0 else policy.budgetFor tag

/-- Do elements of a name go with their content wherever they stand? -/
def forbids (policy : Policy) (tag : String) : Bool :=
  (tag == "script" && !policy.config.allowJavaScript) ||
    (tag == "style" && !policy.allowsStyleElement)

/-- The log line of a pass. -/
def passLine (policy : Policy) (tally : Tally) : String :=
  "DEBUG trimhtml.enforce: Kept " ++ toString tally.total ++ " of " ++
    toString policy.totalBudget ++ " budgeted elements"

/-- The text that stays in a style element, if any does. -/
def filterStyleText (policy : Policy) (text : String) : Except Fault (Option String) := do
  let filtered ← Css.filterSheet policy.styleAllow text.toList
  return if (Text.strip filtered).isEmpty then none else some (String.ofList filtered)

end Policy

namespace Store

/-- Filter the text of a style element, and take the element out if none is left. -/
def filterStyle (store : Store) (policy : Policy) (handle : Handle) : Except Fault Store := do
  match ← policy.filterStyleText (store.directText handle) with
  | some text => return store.setText handle text
  | none => return store.detach handle

/-- Keep an element of a name with the attributes and the style that stay. -/
def keepElement (store : Store) (policy : Policy) (tag : String) (handle : Handle) :
    Except Fault Store := do
  let attributes ← policy.filterAttributes tag (store.label handle).attributes
  let store := store.setAttributes handle attributes
  if tag = "style" then store.filterStyle policy handle else return store

/-- Visit a connected element. -/
def visitConnected (store : Store) (policy : Policy) (tally : Tally) (handle : Handle) :
    Except Fault (Store × Tally) := do
  let tag := Text.lower (store.label handle).tag
  if policy.forbids tag then return (store.detach handle, tally)
  else if isStructural tag then return (← store.keepElement policy tag handle, tally)
  else
    let budget := policy.effectiveBudget tag
    if budget = 0 then return ((store.unwrap handle).1, tally)
    else if tally.saturated || budget ≤ tally.count tag then
      return (store.detach handle, tally)
    else
      let store ← store.keepElement policy tag handle
      return (store, (tally.add tag).settle policy.totalBudget)

/-- Visit an element. -/
def visit (store : Store) (policy : Policy) (tally : Tally) (handle : Handle) :
    Except Fault (Store × Tally) :=
  if store.isConnected handle then store.visitConnected policy tally handle
  else .ok (store, tally)

/-- Visit listed elements. -/
def visitAll (policy : Policy) : List Handle → Store → Tally → Except Fault (Store × Tally)
  | [], store, tally => .ok (store, tally)
  | handle :: rest, store, tally =>
    match store.visit policy tally handle with
    | .ok (store, tally) => visitAll policy rest store tally
    | .error fault => .error fault

/-- Enforce a policy at and below a node. -/
def enforce (store : Store) (policy : Policy) (root : Handle) : Except Fault (Store × Tally) :=
  visitAll policy (store.elements root) store
    { saturated := decide (policy.totalBudget = 0) }

end Store

/-- Enforce a policy on a document. -/
def Tree.enforce (policy : Policy) (document : Tree) : Except Fault (Tree × Tally) := do
  let (store, tally) ← (Store.ofTree document).enforce policy 0
  return (store.toTree 0, tally)

end Winnow
