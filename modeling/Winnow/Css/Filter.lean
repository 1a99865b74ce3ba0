import Winnow.Assoc
import Winnow.Css.Parser
import Winnow.Css.Printer
import Winnow.Text.Blank

/-!
# Filtered styles

A declaration stays if its property is allowed for the selector and no address
occurs in its value. Everything else goes, and a text with a place that cannot
be read goes as a whole.
-/

namespace Winnow.Css

/-- Properties allowed by selector. -/
abbrev Allowance := Assoc (List String)

/-- Applies to every element, in inline styles. -/
def wildcard : String := "*"

/-- A declaration that stays: the property and the text of its value. -/
structure Setting where
  property : List Char
  value : List Char
  deriving DecidableEq, Repr

/-- A setting as text. -/
def Setting.write (setting : Setting) : List Char := setting.property ++ ':' :: setting.value

/-- The text of a value without the blanks around it. -/
def valueText (value : List Node) : List Char := Text.strip (write value)

/-- What follows a value that counts as important. -/
def importantMark (important : Bool) : List Char := if important then "!important".toList else []

/-- Settings as text. -/
def writeSettings (settings : List Setting) : List Char :=
  Text.joinWith [';'] (settings.map Setting.write)

/-- Where a style is written decides about two matters: in the text of a style
element a bracket could end the element, and importance is kept. -/
inductive Place where
  | sheet
  | inline
  deriving DecidableEq, Repr

/-- The setting that a node leaves, if it is a declaration of an allowed property. -/
def settingOf? (place : Place) (allowed : List String) : Node → Option Setting
  | .declaration name value important =>
    let property := Text.strip (Node.lowerName name)
    let text := valueText value
    if !allowed.contains (String.ofList property) || Node.containsUrl value || text.isEmpty then
      none
    else match place with
      | .inline => some { property := property, value := text }
      | .sheet =>
        if text.contains '<' then none
        else some { property := property, value := text ++ importantMark important }
  | _ => none

/-- The settings that a list of declarations leaves. -/
def settings (place : Place) (allowed : List String) (nodes : List Node) : List Setting :=
  nodes.filterMap (settingOf? place allowed)

/-! ## Style sheets -/

/-- Split nodes at the commas between them. -/
def splitCommas : List Node → List (List Node)
  | [] => [[]]
  | node :: rest =>
    if node.isSign [','] then [] :: splitCommas rest
    else match splitCommas rest with
      | [] => [[node]]
      | group :: groups => (node :: group) :: groups

/-- The selectors before the block of a rule, as trimmed texts. -/
def selectors (nodes : List Node) : List (List Char) :=
  ((splitCommas nodes).map fun group => Text.strip (write group)).filter (!·.isEmpty)

/-- The rule that a selector keeps of a list of declarations. -/
def ruleFor (allowance : Allowance) (declarations : List Node) (selector : List Char) :
    List Char :=
  let allowed := (allowance.find? (String.ofList selector)).getD []
  if allowed.isEmpty || selector.contains '<' then []
  else
    let kept := settings .sheet allowed declarations
    if kept.isEmpty then [] else selector ++ '\x7b' :: writeSettings kept ++ ['\x7d']

/-- What is left of the rules of a sheet, unless a place in them cannot be read. -/
def filterRules (allowance : Allowance) : List Node → Option (List Char)
  | [] => some []
  | .rule subject content :: rest =>
    let items := declarations content
    if Node.containsFlaw items then none
    else
      let kept := (selectors subject).flatMap (ruleFor allowance items)
      (filterRules allowance rest).map (kept ++ ·)
  | _ :: rest => filterRules allowance rest

/-- Filter the text of a style element. -/
def filterSheet (allowance : Allowance) (css : List Char) : Except Fault (List Char) := do
  let nodes ← parseSheet false css
  if Node.containsFlaw nodes then return []
  else return (filterRules allowance nodes).getD []

/-! ## Inline styles -/

/-- The properties that an element of a name may set inline. -/
def inlineProperties (allowance : Allowance) (tag : String) : List String :=
  distinct ((allowance.find? wildcard).getD [] ++ (allowance.find? tag).getD [])

/-- Filter the style attribute of an element of a name. -/
def filterInline (allowance : Allowance) (tag : String) (css : List Char) :
    Except Fault (List Char) :=
  let allowed := inlineProperties allowance tag
  if allowed.isEmpty then .ok []
  else do
    let nodes ← parseDeclarations false css
    if Node.containsFlaw nodes then return []
    else return writeSettings (settings .inline allowed nodes)

/-- A declaration as a setting, whatever its property is. -/
def settingOfAny? : Node → Option Setting
  | .declaration name value important =>
    some { property := Node.lowerName name, value := valueText value ++ importantMark important }
  | _ => none

/-- Write a list of declarations in the form in which settings are written. -/
def normalizeDeclarations (css : List Char) : Except Fault (List Char) := do
  return writeSettings ((← parseDeclarations false css).filterMap settingOfAny?)

end Winnow.Css
