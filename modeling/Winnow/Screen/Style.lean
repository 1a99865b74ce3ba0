import Winnow.Css.Filter

/-!
# Screened styles

The declarations of allowed properties stay, together with what stands between
them. The properties of SVG that paint lines and areas are always allowed.
-/

namespace Winnow.Screen.Style

open Css

/-- Properties that are always allowed. -/
def paintProperties : List String := [
  "fill", "fill-opacity", "fill-rule", "stroke", "stroke-linecap", "stroke-linejoin",
  "stroke-opacity", "stroke-width"]

/-- Are both nodes comments, or both white space? -/
def sameBlank : Node → Node → Bool
  | .token (.whitespace _), .token (.whitespace _) => true
  | .token (.comment _), .token (.comment _) => true
  | _, _ => false

/-- The nodes that stay, given the latest one that stayed. Blanks at the start go, and
of neighbouring blanks of one kind the first stays. -/
def keepFrom (properties : List String) (last : Option Node) : List Node → List Node
  | [] => []
  | .declaration name value important :: rest =>
    if (properties ++ paintProperties).contains (String.ofList (Node.lowerName name)) then
      let node := Node.declaration name value important
      node :: keepFrom properties (some node) rest
    else keepFrom properties last rest
  | node :: rest =>
    if node.isBlank && last.any (!sameBlank · node) then
      node :: keepFrom properties (some node) rest
    else keepFrom properties last rest

/-- A style of which only the declarations of allowed properties stay. -/
def keep (properties : List String) (css : List Char) : Except Fault (List Char) := do
  let nodes ← parseDeclarations true css
  return Text.strip (write (keepFrom properties none nodes))

/-- The style that passes, written in the usual form. -/
def screened (properties : List String) (css : List Char) : Except Fault (List Char) := do
  normalizeDeclarations (← keep properties css)

end Winnow.Screen.Style
