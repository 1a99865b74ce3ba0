import Winnow.Css.Filter
import Winnow.Document.Tree
import Winnow.Policy
import Winnow.Url

/-!
# Filtered attributes

An attribute stays on an element if the policy allows its name there. While
scripting is not allowed, event handlers and addresses that would run something
go whatever the policy says. Inline styles are filtered and not just kept.
-/

namespace Winnow

/-- Attributes that the conventional switch allows on every element. -/
def conventionalEverywhere : List String := ["class", "id"]

/-- Attributes that the conventional switch allows on elements of a name. -/
def conventionalByTag : Assoc (List String) := [
  ("a", ["href", "title", "target", "rel"]),
  ("img", ["src", "alt", "title", "width", "height"]),
  ("html", ["lang"])]

namespace Policy

/-- The attributes that elements of a name may keep, in lower case. -/
def allowedAttributes (policy : Policy) (tag : String) : List String :=
  let listed := (policy.attrAllow.find? tag).getD []
  if policy.config.allowCommonAttributes then
    distinct (listed ++ conventionalEverywhere ++ (conventionalByTag.find? tag).getD [])
  else distinct listed

/-- Does a name in lower case belong to an event handler? -/
def isHandler (name : String) : Bool := ['o', 'n'].isPrefixOf name.toList

/-- What becomes of a value. -/
inductive Verdict where
  | drop
  | keep
  | change (value : String)
  deriving DecidableEq, Repr

/-- What becomes of the value of an attribute with an allowed name. -/
def judgeValue (policy : Policy) (tag name value : String) : Except Fault Verdict :=
  if name = "style" then do
    let filtered ← Css.filterInline policy.styleAllow tag value.toList
    return if filtered.isEmpty then .drop else .change (String.ofList filtered)
  else if !policy.config.allowJavaScript && Url.addressAttributes.contains name then do
    return if (← Url.isDangerousValue name value) then .drop else .keep
  else .ok .keep

/-- What becomes of an attribute on an element of a name. -/
def judge (policy : Policy) (tag name : String) (value : Option String) : Except Fault Verdict :=
  let lowered := Text.lower name
  if !policy.config.allowJavaScript && isHandler lowered then .ok .drop
  else if !(policy.allowedAttributes tag).contains lowered then .ok .drop
  else policy.judgeValue tag lowered (value.getD "")

/-- The attributes that stay on an element of a name, in their order. -/
def filterAttributes (policy : Policy) (tag : String) : Attributes → Except Fault Attributes
  | [] => .ok []
  | (name, value) :: rest => do
    let verdict ← policy.judge tag name value
    let rest ← policy.filterAttributes tag rest
    return match verdict with
      | .drop => rest
      | .keep => (name, value) :: rest
      | .change filtered => (name, some filtered) :: rest

end Policy

end Winnow
