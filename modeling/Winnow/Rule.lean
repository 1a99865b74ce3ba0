import Winnow.Value
import Winnow.Text.Lowercase
import Winnow.Text.Quoted

/-!
# Rules

A rule is one line of an allowlist, with segments between vertical bars:

* `tag` admits one more element of that name,
* `tag|attr` admits an attribute on such elements,
* `style|selector|property` admits a style declaration.

Reading is total. A line of any other shape is kept as an ignored rule with the
reason, so that one bad line never disables a list.
-/

namespace Winnow

/-- Why a rule has no effect. -/
inductive Disregard where
  | notText
  | emptyTag
  | emptyTagOrAttribute
  | notStyle
  | emptySelectorOrProperty
  | segmentCount (count : Nat)
  deriving DecidableEq, Repr

/-- The wording of a reason. -/
def Disregard.message : Disregard → String
  | notText => "not a string"
  | emptyTag => "empty tag"
  | emptyTagOrAttribute => "empty tag or attribute"
  | notStyle => "three segments must start with 'style'"
  | emptySelectorOrProperty => "empty selector or property"
  | segmentCount count => "unexpected segment count " ++ toString count

/-- One line of an allowlist. -/
inductive Rule where
  | tag (name : String)
  | attribute (tag name : String)
  | style (selector property : String)
  | ignored (reason : Disregard)
  deriving DecidableEq, Repr

namespace Rule

/-- The trimmed segments between the vertical bars of a line. -/
def segments (line : String) : List String :=
  (Text.splitAt '|' line.toList).map fun segment => String.ofList (Text.strip segment)

/-- The rule with the given trimmed segments. -/
def ofSegments : List String → Rule
  | [element] =>
    let element := Text.lower element
    if element.isEmpty then .ignored .emptyTag else .tag element
  | [element, name] =>
    let element := Text.lower element
    let name := Text.lower name
    if element.isEmpty || name.isEmpty then .ignored .emptyTagOrAttribute
    else .attribute element name
  | [word, selector, property] =>
    if Text.lower word != "style" then .ignored .notStyle
    else
      let property := Text.lower property
      if selector.isEmpty || property.isEmpty then .ignored .emptySelectorOrProperty
      else .style selector property
  | segments => .ignored (.segmentCount segments.length)

/-- Read one line. -/
def parse (line : String) : Rule := ofSegments (segments line)

/-- Read one item of a rule list, which need not be a text. -/
def ofValue : Value → Rule
  | .text line => parse line
  | _ => .ignored .notText

/-- The items of a rule list: nothing for an unset value, and otherwise the
items of a value that can be listed. -/
def items (rules : Value) : Except Fault (List Value) :=
  if rules.isSet then
    match rules.items? with
    | some items => .ok items
    | none => .error .notListed
  else .ok []

/-- The lines of an ordinary rule list. -/
def lines (rules : List String) : Value := .list (rules.map .text)

/-- The log line for a rule that is ignored. -/
def ignoredLine (rule : Value) (reason : Disregard) : String :=
  "DEBUG trimhtml.rules: Ignoring rule " ++ rule.shown ++ ": " ++ reason.message

/-- The log lines of reading the items of a rule list. -/
def logLines (rules : List Value) : List String :=
  rules.filterMap fun rule => match ofValue rule with
    | .ignored reason => some (ignoredLine rule reason)
    | _ => none

end Rule

end Winnow
