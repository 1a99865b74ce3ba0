import Winnow.Html.Construction.Vocabulary
import Winnow.Screen.Address
import Winnow.Screen.Names
import Winnow.Screen.Piece
import Winnow.Screen.Style

/-!
# Pieces that pass

Comments and pieces of elements that do not pass the screen are dropped. Of the
others the attributes are filtered, text is cut at its references and joined
again, and attributes with a namespace get its prefix into their names.
-/

namespace Winnow.Screen

open Html

/-! ## Attributes -/

/-- Attributes whose values are addresses. -/
def addressKeys : List Key :=
  (["href", "src", "cite", "action", "longdesc", "poster", "background", "datasrc", "dynsrc",
    "lowsrc", "ping"].map fun name => { space := none, name := name }) ++
  [{ space := some Vocabulary.linkSpace, name := "href" },
    { space := some Vocabulary.xmlSpace, name := "base" }]

/-- SVG attributes whose values may refer to other elements. -/
def referringNames : List String := [
  "clip-path", "color-profile", "cursor", "fill", "filter", "marker", "marker-start", "marker-mid",
  "marker-end", "mask", "stroke"]

/-- SVG elements that may link only within the document. -/
def localLinkTags : List String := [
  "altGlyph", "animate", "animateColor", "animateMotion", "animateTransform", "cursor", "feImage",
  "filter", "linearGradient", "pattern", "radialGradient", "textpath", "tref", "set", "use"]

/-- Keys of links. -/
def linkKeys : List Key :=
  [{ space := none, name := "href" }, { space := some Vocabulary.linkSpace, name := "href" }]

/-- The key of inline styles. -/
def styleKey : Key := { space := none, name := "style" }

/-- Resolve one reference everywhere in a text. -/
def resolveOne (reference : List Char) (c : Char) : List Char → List Char
  | [] => []
  | d :: cs =>
    if reference.isPrefixOf (d :: cs) then
      c :: resolveOne reference c (cs.drop (reference.length - 1))
    else d :: resolveOne reference c cs
termination_by cs => cs.length
decreasing_by all_goals simp only [List.length_drop, List.length_cons]; omega

/-- Resolve the references to brackets and ampersands. -/
def resolveMarkup (cs : List Char) : List Char :=
  resolveOne "&amp;".toList '&' (resolveOne "&lt;".toList '<' (resolveOne "&gt;".toList '>' cs))

/-- The rest of a text after a call at its start that fetches an address outside the document. -/
def afterFetch? (cs : List Char) : Option (List Char) :=
  if "url".toList.isPrefixOf cs then
    match (cs.drop 3).dropWhile Text.isBlank with
    | '(' :: argument =>
      match argument.dropWhile Text.isBlank with
      | c :: d :: cs =>
        if c = '#' || d = ')' then none
        else match (d :: cs).dropWhile (· != ')') with
          | _ :: rest => some rest
          | [] => none
      | _ => none
    | _ => none
  else none

/-- Replace the calls that fetch an address outside the document by blanks, looking at
no more than `fuel` places. -/
def withoutFetches : Nat → List Char → List Char
  | 0, _ => []
  | _, [] => []
  | fuel + 1, c :: cs =>
    match afterFetch? (c :: cs) with
    | some rest => ' ' :: withoutFetches fuel rest
    | none => c :: withoutFetches fuel cs

/-- The value that a referring attribute keeps. -/
def localReferences (value : List Char) : List Char :=
  let value := resolveMarkup value
  Text.strip (withoutFetches value.length value)

/-- Does a link lead out of the document? -/
def leadsOut (value : List Char) : Bool :=
  match value.dropWhile Text.isBlank with
  | c :: _ => c != '#'
  | [] => false

/-- The value that a field of an element keeps, if the field passes. -/
def keptValue (screen : Screen) (tag : String) (key : Key) (value : String) :
    Except Fault (Option String) := do
  if !screen.attributes.contains key.name then return none
  if addressKeys.contains key then
    if !(← Address.passes value.toList) then return none
  let refers := key.space.isNone && referringNames.contains key.name
  let kept := if refers then localReferences value.toList else value.toList
  if refers && kept.isEmpty then return none
  if localLinkTags.contains tag && linkKeys.contains key && leadsOut kept then return none
  if key = styleKey then return some (String.ofList (← Style.screened screen.properties kept))
  return some (String.ofList kept)

/-- The fields of an element that pass. -/
def keptFields (screen : Screen) (tag : String) : Fields → Except Fault Fields
  | [] => .ok []
  | (key, value) :: rest => do
    let kept ← keptValue screen tag key value
    let rest ← keptFields screen tag rest
    return match kept with
      | some value => (key, value) :: rest
      | none => rest

/-! ## Text -/

/-- A control character is shown as a question mark. -/
def showControl (c : Char) : Char :=
  if c.toNat < 0x20 && c != '\t' && c != '\n' && c != '\r' then '?' else c

/-- The pieces of the text after an ampersand. A reference to the ampersand itself is text. -/
def piecesOfPart (part : List Char) : List Piece :=
  match Entity.name? part with
  | some name =>
    let piece := if name = "amp".toList then .text ['&'] else .reference name
    piece :: Piece.unlessEmpty .text (Entity.after name part)
  | none => [.text ('&' :: part)]

/-- A text cut at its references. -/
def cutText (data : List Char) : List Piece :=
  match Text.splitAt '&' (data.map showControl) with
  | [] => []
  | start :: parts => Piece.unlessEmpty .text start ++ parts.flatMap piecesOfPart

/-- Join neighbouring texts. -/
def joinTexts : List Piece → List Piece
  | [] => []
  | .text data :: rest =>
    match joinTexts rest with
    | .text next :: others => .text (data ++ next) :: others
    | others => .text data :: others
  | piece :: rest => piece :: joinTexts rest

/-! ## Pieces -/

/-- What stays of a piece. -/
def pass (screen : Screen) : Piece → Except Fault (List Piece)
  | .startTag name fields =>
    if screen.tags.contains name then do
      return [.startTag name (← keptFields screen name fields)]
    else .ok []
  | .emptyTag name fields =>
    if screen.tags.contains name then do
      return [.emptyTag name (← keptFields screen name fields)]
    else .ok []
  | .endTag name => .ok (if screen.tags.contains name then [.endTag name] else [])
  | .text data => .ok (cutText data)
  | .comment _ => .ok []
  | piece => .ok [piece]

/-- What stays of pieces in order. -/
def passAll (screen : Screen) : List Piece → Except Fault (List Piece)
  | [] => .ok []
  | piece :: rest => do
    let front ← pass screen piece
    let back ← passAll screen rest
    return front ++ back

/-! ## Prefixes -/

/-- Prefixes by namespace. -/
abbrev Prefixes := Assoc String

/-- The prefixes of the namespaces that attributes of foreign elements have. -/
def usualPrefixes : Prefixes := [
  (Vocabulary.linkSpace, "xlink"), (Vocabulary.xmlSpace, "xml"),
  (Vocabulary.declarationSpace, "xmlns")]

/-- A key with the prefix of its namespace in the name. A name that is the prefix stays. -/
def Key.qualify (prefixes : Prefixes) (key : Key) : Key :=
  match key.space with
  | none => key
  | some space =>
    if space.isEmpty then key
    else match prefixes.find? space with
      | some mark => if key.name = mark then key else { key with name := mark ++ ":" ++ key.name }
      | none => key

/-- Fields with qualified keys. Where two keys become one, the first place and the last
value stay. -/
def Fields.qualify (prefixes : Prefixes) (fields : Fields) : Fields :=
  Fields.ofPairs (fields.map fun field => (field.1.qualify prefixes, field.2))

/-- A piece with qualified keys. -/
def Piece.qualify (prefixes : Prefixes) : Piece → Piece
  | .startTag name fields => .startTag name (fields.qualify prefixes)
  | .emptyTag name fields => .emptyTag name (fields.qualify prefixes)
  | piece => piece

end Winnow.Screen
