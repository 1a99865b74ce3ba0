import Winnow.Attributes
import Winnow.Html.Construction.Vocabulary

/-!
# What a screen lets through

A screen is a coarse second filter for written fragments. It knows one list of
element names and one list of attribute names, without regard to which
attribute stands on which element. Names of foreign elements and attributes
count in the case in which they are read back.
-/

namespace Winnow

/-- What may stand in a written fragment. -/
structure Screen where
  /-- Element names, in the case in which they are read. -/
  tags : List String
  /-- Attribute names, in the case in which they are read and without a namespace. -/
  attributes : List String
  /-- Properties of inline styles. -/
  properties : List String
  deriving DecidableEq, Repr

namespace Screen

open Html

/-- SVG element names with capitals. -/
def casedTags : List String := "feDropShadow" :: Vocabulary.svgElementNames

/-- SVG attribute names with capitals that are left in lower case. -/
def uncasedAttributes : List String := [
  "contentScriptType", "contentStyleType", "externalResourcesRequired", "filterRes"]

/-- Attribute names with capitals of foreign elements. -/
def casedAttributes : List String :=
  Vocabulary.mathAttributeNames ++
    Vocabulary.svgAttributeNames.filter fun name => !uncasedAttributes.contains name

/-- The names in a list of names with capitals whose lower-case forms are among the given ones. -/
def casedForms (cased names : List String) : List String :=
  cased.filter fun name => names.contains (Text.asciiLower name)

/-- The parts of names after their first colons. -/
def localNames (names : List String) : List String :=
  names.filterMap fun name =>
    match name.toList.dropWhile (· != ':') with
    | _ :: cs => some (String.ofList cs)
    | [] => none

end Screen

namespace Policy

/-- The element names that a screen lets through. -/
def screenTags (policy : Policy) : List String :=
  let budgeted := (policy.tagBudget.filter fun entry => decide (0 < entry.2)).map (·.1)
  let names := (budgeted ++ structuralTags).filter fun tag =>
    policy.config.allowJavaScript || tag != "script"
  distinct (names ++ Screen.casedForms Screen.casedTags names)

/-- The attribute names that a screen lets through. -/
def screenAttributes (policy : Policy) : List String :=
  let listed := policy.attrAllow.flatMap (·.2)
  let conventional :=
    if policy.config.allowCommonAttributes then
      conventionalEverywhere ++ conventionalByTag.flatMap (·.2)
    else []
  let names := listed ++ conventional
  let names := names ++ Screen.localNames names
  distinct (names ++ Screen.casedForms Screen.casedAttributes names)

/-- The screen that goes with a policy. -/
def screen (policy : Policy) : Screen where
  tags := policy.screenTags
  attributes := policy.screenAttributes
  properties := distinct (policy.styleAllow.flatMap (·.2))

end Policy

end Winnow
