import Winnow.Sanitize
import Winnow.Text.Quoted

/-!
# Auditing an output

An audit reads an output again and reports every way in which it does not honor
a policy: too many elements, attributes that are not allowed, handlers and
dangerous addresses while scripting is off, addresses in styles, and an output
that another run would change.
-/

namespace Winnow

/-- A way in which an output does not honor a policy. -/
inductive Violation where
  | budget (count : Nat) (tag : String) (most : Nat)
  | attribute (name tag : String)
  | handler (name tag : String)
  | address (name value tag : String)
  | inlineUrl (tag : String)
  | sheetUrl
  | notSettled
  deriving DecidableEq, Repr

/-- The wording of a violation. -/
def Violation.message : Violation → String
  | .budget count tag most =>
    toString count ++ " <" ++ tag ++ "> elements, budget " ++ toString most
  | .attribute name tag => "attribute " ++ Text.quoted name ++ " on <" ++ tag ++ "> is not allowed"
  | .handler name tag => "event handler " ++ Text.quoted name ++ " on <" ++ tag ++ ">"
  | .address name value tag =>
    "dangerous " ++ name ++ "=" ++ Text.quoted value ++ " on <" ++ tag ++ ">"
  | .inlineUrl tag => "url() in inline style on <" ++ tag ++ ">"
  | .sheetUrl => "url() in <style>"
  | .notSettled => "output is not a fixed point"

namespace Audit

/-- Does a text occur in another? -/
def occursIn (part : List Char) : List Char → Bool
  | [] => part.isEmpty
  | c :: cs => part.isPrefixOf (c :: cs) || occursIn part cs

/-- Does a text name an address in a style? -/
def namesUrl (text : String) : Bool := occursIn "url(".toList (Text.lowerChars text.toList)

/-- How often each name occurs, in order of first occurrence. -/
def countNames (names : List String) : Assoc Nat :=
  names.foldl (fun counts name => counts.put name ((counts.find? name).getD 0 + 1)) []

/-- The names with too many elements. -/
def overruns (policy : Policy) (counts : Assoc Nat) : List Violation :=
  counts.filterMap fun entry =>
    if isStructural entry.1 || entry.2 ≤ policy.budgetFor entry.1 then none
    else some (.budget entry.2 entry.1 (policy.budgetFor entry.1))

/-- Does an attribute hold a dangerous address? -/
def holdsDanger (policy : Policy) (lowered value : String) : Except Fault Bool :=
  if !policy.config.allowJavaScript && Url.isAddressAttribute lowered then
    Url.isDangerousValue lowered value
  else .ok false

/-- The violations of one attribute. -/
def ofAttribute (policy : Policy) (tag name value : String) : Except Fault (List Violation) := do
  let lowered := Text.lower name
  let danger ← holdsDanger policy lowered value
  let scripted := !policy.config.allowJavaScript && Policy.isHandler lowered
  let listed := (policy.allowedAttributes tag).contains lowered
  return (if listed then [] else [.attribute name tag]) ++
    (if scripted then [.handler name tag] else []) ++
    (if danger then [.address name value tag] else []) ++
    (if lowered = "style" && namesUrl value then [.inlineUrl tag] else [])

/-- The violations of the attributes of an element. -/
def ofAttributes (policy : Policy) (tag : String) : Attributes → Except Fault (List Violation)
  | [] => .ok []
  | (name, value) :: rest => do
    let front ← ofAttribute policy tag name (value.getD "")
    let back ← ofAttributes policy tag rest
    return front ++ back

/-- The violations of elements one by one. -/
def ofElements (policy : Policy) : List Tree → Except Fault (List Violation)
  | [] => .ok []
  | element :: rest => do
    let tag := Text.lower element.label.tag
    let front ← ofAttributes policy tag element.label.attributes
    let sheet := if tag = "style" && namesUrl element.directText then [.sheetUrl] else []
    let back ← ofElements policy rest
    return front ++ sheet ++ back

end Audit

/-- The violations of an output. -/
def Policy.audit (policy : Policy) (output : String) : Except Fault (List Violation) := do
  let document ← Html.parse output
  let elements := match document.rootElement? with
    | some root => root.elements
    | none => []
  let counts := Audit.countNames (elements.map fun element => Text.lower element.label.tag)
  let found ← Audit.ofElements policy elements
  let again ← policy.sanitize output
  return Audit.overruns policy counts ++ found ++
    (if again = output then [] else [.notSettled])

end Winnow
