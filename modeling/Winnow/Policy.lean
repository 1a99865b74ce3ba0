import Winnow.Config
import Winnow.Rule

/-!
# Policies

A policy is a compiled rule list: how many elements of each name are admitted,
which attributes each name may keep, and which style properties each selector
may set. It is compiled once and used for any number of documents.
-/

namespace Winnow

/-- The elements of every document. They are kept whatever the rules say and
count against no budget. -/
def structuralTags : List String := ["html", "head", "body"]

/-- Is this the name of an element that every document has? -/
def isStructural (tag : String) : Bool := structuralTags.contains tag

/-- Compiled rules with their configuration. -/
structure Policy where
  /-- How many elements of a name are admitted. -/
  tagBudget : Assoc Nat := []
  /-- The attributes that elements of a name may keep. -/
  attrAllow : Assoc (List String) := []
  /-- The properties that a selector may set. -/
  styleAllow : Assoc (List String) := []
  /-- The switches. -/
  config : Config := {}

namespace Policy

/-- How many elements of a name are admitted. -/
def budgetFor (policy : Policy) (tag : String) : Nat :=
  (policy.tagBudget.find? tag).getD 0

/-- How many elements outside the structure of the document are admitted in all. -/
def totalBudget (policy : Policy) : Nat :=
  policy.tagBudget.foldl (fun total entry =>
    if isStructural entry.1 then total else total + entry.2) 0

/-- Style elements are kept only if they are budgeted and some style rule can fill them. -/
def allowsStyleElement (policy : Policy) : Bool :=
  decide (0 < policy.budgetFor "style") && !policy.styleAllow.isEmpty

/-- Add a member to the set under a name. -/
def grant (table : Assoc (List String)) (name member : String) : Assoc (List String) :=
  table.put name (addMember member ((table.find? name).getD []))

/-- Take one rule into account. -/
def addRule (policy : Policy) : Rule → Policy
  | .tag name =>
    { policy with tagBudget := policy.tagBudget.put name (policy.budgetFor name + 1) }
  | .attribute tag name => { policy with attrAllow := grant policy.attrAllow tag name }
  | .style selector property =>
    { policy with styleAllow := grant policy.styleAllow selector property }
  | .ignored _ => policy

/-- Compile rules that have been read. -/
def ofRules (rules : List Rule) (config : Config) : Policy :=
  rules.foldl addRule { config := config }

/-- Compile an untyped rule list with an untyped configuration. -/
def compile (rules config : Value) : Except Fault Policy := do
  let items ← Rule.items rules
  let config ← Config.ofValue config
  return ofRules (items.map Rule.ofValue) config

/-- Compile rule lines. -/
def ofLines (rules : List String) (config : Config) : Policy :=
  ofRules (rules.map Rule.parse) config

/-! ## Policies from untyped parts -/

/-- Put a value under an untyped key, in place if an equal key is present. -/
def putKey (key value : Value) : List (Value × Value) → List (Value × Value)
  | [] => [(key, value)]
  | entry :: rest =>
    if entry.1.sameKey key then (entry.1, value) :: rest else entry :: putKey key value rest

/-- The table of pairs with untyped keys: equal keys share the first position
and take the last value. -/
def keyed (pairs : List (Value × Value)) : List (Value × Value) :=
  pairs.foldl (fun table entry => putKey entry.1 entry.2 table) []

/-- The text of a key, if the value can be one. -/
def keyText (key : Value) : Except Fault String :=
  match key.keyText? with
  | some text => .ok text
  | none => .error .notAKey

/-- The budget that an untyped count stands for; negative counts allow nothing. -/
def readBudget (count : Value) : Except Fault Nat := do
  let n ← count.toInt
  return n.toNat

/-- The set of names that an untyped list stands for. -/
def readNames (names : Value) : Except Fault (List String) :=
  match names.items? with
  | none => .error .notListed
  | some items => do
    let texts ← items.mapM keyText
    return distinct texts

/-- A table from untyped pairs. -/
def readTable {β : Type} (read : Value → Except Fault β) (pairs : List (Value × Value)) :
    Except Fault (Assoc β) := do
  let entries ← (keyed pairs).mapM fun entry => do
    let name ← keyText entry.1
    let value ← read entry.2
    return (name, value)
  return Assoc.ofPairs entries

/-- A policy from untyped parts. -/
def ofParts (tagBudget attrAllow styleAllow : List (Value × Value)) : Except Fault Policy := do
  for entry in tagBudget ++ attrAllow ++ styleAllow do
    let _ ← keyText entry.1
  let budgets ← readTable readBudget tagBudget
  let attributes ← readTable readNames attrAllow
  let styles ← readTable readNames styleAllow
  return { tagBudget := budgets, attrAllow := attributes, styleAllow := styles }

end Policy

end Winnow
