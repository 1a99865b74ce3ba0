import Winnow.Document.Tree
import Winnow.Html.Token
import Winnow.Text.Lowercase

/-!
# Element classes

The lists of names on which tree construction turns: elements that end a
search through the open elements, elements that are closed silently, foreign
names whose case is restored, and declarations of old document types.
-/

namespace Winnow.Html.Vocabulary

/-- HTML elements that a general end tag does not close over. -/
def specialNames : List String := [
  "address", "applet", "area", "article", "aside", "base", "basefont", "bgsound", "blockquote",
  "body", "br", "button", "caption", "center", "col", "colgroup", "command", "dd", "details",
  "dir", "div", "dl", "dt", "embed", "fieldset", "figure", "footer", "form", "frame", "frameset",
  "h1", "h2", "h3", "h4", "h5", "h6", "head", "header", "hr", "html", "iframe", "image", "img",
  "input", "isindex", "li", "link", "listing", "marquee", "menu", "meta", "nav", "noembed",
  "noframes", "noscript", "object", "ol", "p", "param", "plaintext", "pre", "script", "section",
  "select", "style", "table", "tbody", "td", "textarea", "tfoot", "th", "thead", "title", "tr",
  "ul", "wbr", "xmp"]

/-- Elements that a general end tag does not close over. -/
def isSpecial (space : Namespace) (tag : String) : Bool :=
  match space with
  | .html => specialNames.contains tag
  | .svg => tag == "foreignObject"
  | _ => false

/-- HTML elements that bound the ordinary scope. -/
def scopingNames : List String := [
  "applet", "caption", "html", "marquee", "object", "table", "td", "th"]

/-- MathML elements whose content is ordinary text. -/
def mathTextNames : List String := ["mi", "mo", "mn", "ms", "mtext"]

/-- SVG elements whose content is HTML. -/
def svgHtmlNames : List String := ["foreignObject", "desc", "title"]

/-- Elements that bound the ordinary scope. -/
def isScoping (space : Namespace) (tag : String) : Bool :=
  match space with
  | .html => scopingNames.contains tag
  | .mathml => mathTextNames.contains tag || tag == "annotation-xml"
  | .svg => svgHtmlNames.contains tag
  | .other _ => false

/-- The ways to bound a search through the open elements. -/
inductive Scope where
  | ordinary
  | button
  | list
  | table
  | select
  deriving DecidableEq, Repr

/-- Does an element bound a scope? -/
def Scope.bounds (scope : Scope) (space : Namespace) (tag : String) : Bool :=
  let html := decide (space = .html)
  match scope with
  | .ordinary => isScoping space tag
  | .button => isScoping space tag || (html && tag == "button")
  | .list => isScoping space tag || (html && (tag == "ol" || tag == "ul"))
  | .table => html && (tag == "html" || tag == "table")
  | .select => !(html && (tag == "optgroup" || tag == "option"))

/-- The six levels of headings. -/
def headings : List String := ["h1", "h2", "h3", "h4", "h5", "h6"]

/-- Parts of a table in which stray content is moved out. -/
def tableParts : List String := ["table", "tbody", "tfoot", "thead", "tr"]

/-- Elements whose end tags may be left out. -/
def impliedEnds : List String := ["dd", "dt", "li", "option", "optgroup", "p", "rp", "rt"]

/-- Start tags that leave foreign content. -/
def breakouts : List String := [
  "b", "big", "blockquote", "body", "br", "center", "code", "dd", "div", "dl", "dt", "em", "embed",
  "h1", "h2", "h3", "h4", "h5", "h6", "head", "hr", "i", "img", "li", "listing", "menu", "meta",
  "nobr", "ol", "p", "pre", "ruby", "s", "small", "span", "strong", "strike", "sub", "sup",
  "table", "tt", "u", "ul", "var"]

/-- Does a start tag leave foreign content? -/
def breaksOut (tag : Tag) : Bool :=
  breakouts.contains tag.name ||
    (tag.name == "font" &&
      (tag.attributes.has "color" || tag.attributes.has "face" || tag.attributes.has "size"))

/-! ## Foreign names -/

/-- SVG element names with capitals. -/
def svgElementNames : List String := [
  "altGlyph", "altGlyphDef", "altGlyphItem", "animateColor", "animateMotion", "animateTransform",
  "clipPath", "feBlend", "feColorMatrix", "feComponentTransfer", "feComposite",
  "feConvolveMatrix", "feDiffuseLighting", "feDisplacementMap", "feDistantLight", "feFlood",
  "feFuncA", "feFuncB", "feFuncG", "feFuncR", "feGaussianBlur", "feImage", "feMerge",
  "feMergeNode", "feMorphology", "feOffset", "fePointLight", "feSpecularLighting", "feSpotLight",
  "feTile", "feTurbulence", "foreignObject", "glyphRef", "linearGradient", "radialGradient",
  "textPath"]

/-- SVG attribute names with capitals. -/
def svgAttributeNames : List String := [
  "attributeName", "attributeType", "baseFrequency", "baseProfile", "calcMode", "clipPathUnits",
  "contentScriptType", "contentStyleType", "diffuseConstant", "edgeMode",
  "externalResourcesRequired", "filterRes", "filterUnits", "glyphRef", "gradientTransform",
  "gradientUnits", "kernelMatrix", "kernelUnitLength", "keyPoints", "keySplines", "keyTimes",
  "lengthAdjust", "limitingConeAngle", "markerHeight", "markerUnits", "markerWidth",
  "maskContentUnits", "maskUnits", "numOctaves", "pathLength", "patternContentUnits",
  "patternTransform", "patternUnits", "pointsAtX", "pointsAtY", "pointsAtZ", "preserveAlpha",
  "preserveAspectRatio", "primitiveUnits", "refX", "refY", "repeatCount", "repeatDur",
  "requiredExtensions", "requiredFeatures", "specularConstant", "specularExponent",
  "spreadMethod", "startOffset", "stdDeviation", "stitchTiles", "surfaceScale", "systemLanguage",
  "tableValues", "targetX", "targetY", "textLength", "viewBox", "viewTarget",
  "xChannelSelector", "yChannelSelector", "zoomAndPan"]

/-- The name in a list that a lower-case name stands for, or the name itself. -/
def restoreCase (names : List String) (name : String) : String :=
  if name.toList.all fun c => c.toNat < 0x80 then
    (names.find? fun known => Text.asciiLower known == name).getD name
  else name

/-- The attribute names of MathML with capitals. -/
def mathAttributeNames : List String := ["definitionURL"]

/-- The namespace of links. -/
def linkSpace : String := "http://www.w3.org/1999/xlink"

/-- The namespace of names that start with `xml:`. -/
def xmlSpace : String := "http://www.w3.org/XML/1998/namespace"

/-- The namespace of namespace declarations. -/
def declarationSpace : String := "http://www.w3.org/2000/xmlns/"

/-- Attributes of foreign elements that have a namespace, with their local names. -/
def spacedAttributes : List (String × String × String) := [
  ("xlink:actuate", linkSpace, "actuate"), ("xlink:arcrole", linkSpace, "arcrole"),
  ("xlink:href", linkSpace, "href"), ("xlink:role", linkSpace, "role"),
  ("xlink:show", linkSpace, "show"), ("xlink:title", linkSpace, "title"),
  ("xlink:type", linkSpace, "type"), ("xml:base", xmlSpace, "base"),
  ("xml:lang", xmlSpace, "lang"), ("xml:space", xmlSpace, "space"),
  ("xmlns", declarationSpace, "xmlns"), ("xmlns:xlink", declarationSpace, "xlink")]

/-- Does this attribute of a foreign element have a namespace? -/
def isSpaced (name : String) : Bool := spacedAttributes.any (·.1 == name)

/-- The name of a foreign attribute with its namespace written in front in braces. -/
def expandedName (name : String) : String :=
  match spacedAttributes.find? (·.1 == name) with
  | some (_, space, localName) => "\x7b" ++ space ++ "\x7d" ++ localName
  | none => name

/-! ## Document types -/

/-- Starts of public identifiers of document types that call for old rules. -/
def oldPublicIds : List String := [
  "+//silmaril//dtd html pro v0r11 19970101//",
  "-//advasoft ltd//dtd html 3.0 aswedit + extensions//",
  "-//as//dtd html 3.0 aswedit + extensions//",
  "-//ietf//dtd html 2.0 level 1//",
  "-//ietf//dtd html 2.0 level 2//",
  "-//ietf//dtd html 2.0 strict level 1//",
  "-//ietf//dtd html 2.0 strict level 2//",
  "-//ietf//dtd html 2.0 strict//",
  "-//ietf//dtd html 2.0//",
  "-//ietf//dtd html 2.1e//",
  "-//ietf//dtd html 3.0//",
  "-//ietf//dtd html 3.2 final//",
  "-//ietf//dtd html 3.2//",
  "-//ietf//dtd html 3//",
  "-//ietf//dtd html level 0//",
  "-//ietf//dtd html level 1//",
  "-//ietf//dtd html level 2//",
  "-//ietf//dtd html level 3//",
  "-//ietf//dtd html strict level 0//",
  "-//ietf//dtd html strict level 1//",
  "-//ietf//dtd html strict level 2//",
  "-//ietf//dtd html strict level 3//",
  "-//ietf//dtd html strict//",
  "-//ietf//dtd html//",
  "-//metrius//dtd metrius presentational//",
  "-//microsoft//dtd internet explorer 2.0 html strict//",
  "-//microsoft//dtd internet explorer 2.0 html//",
  "-//microsoft//dtd internet explorer 2.0 tables//",
  "-//microsoft//dtd internet explorer 3.0 html strict//",
  "-//microsoft//dtd internet explorer 3.0 html//",
  "-//microsoft//dtd internet explorer 3.0 tables//",
  "-//netscape comm. corp.//dtd html//",
  "-//netscape comm. corp.//dtd strict html//",
  "-//o'reilly and associates//dtd html 2.0//",
  "-//o'reilly and associates//dtd html extended 1.0//",
  "-//o'reilly and associates//dtd html extended relaxed 1.0//",
  "-//softquad software//dtd hotmetal pro 6.0::19990601::extensions to html 4.0//",
  "-//softquad//dtd hotmetal pro 4.0::19971010::extensions to html 4.0//",
  "-//spyglass//dtd html 2.0 extended//",
  "-//sq//dtd html 2.0 hotmetal + extensions//",
  "-//sun microsystems corp.//dtd hotjava html//",
  "-//sun microsystems corp.//dtd hotjava strict html//",
  "-//w3c//dtd html 3 1995-03-24//",
  "-//w3c//dtd html 3.2 draft//",
  "-//w3c//dtd html 3.2 final//",
  "-//w3c//dtd html 3.2//",
  "-//w3c//dtd html 3.2s draft//",
  "-//w3c//dtd html 4.0 frameset//",
  "-//w3c//dtd html 4.0 transitional//",
  "-//w3c//dtd html experimental 19960712//",
  "-//w3c//dtd html experimental 970421//",
  "-//w3c//dtd w3 html//",
  "-//w3o//dtd w3 html 3.0//",
  "-//webtechs//dtd mozilla html 2.0//",
  "-//webtechs//dtd mozilla html//"]

/-- Whole public identifiers that call for old rules. -/
def oldWholePublicIds : List String := [
  "-//w3o//dtd w3 html strict 3.0//en//", "-/w3c/dtd html 4.0 transitional/en", "html"]

/-- Starts of public identifiers that call for old rules if no system identifier follows. -/
def oldBarePublicIds : List String := [
  "-//w3c//dtd html 4.01 frameset//", "-//w3c//dtd html 4.01 transitional//"]

/-- The system identifier that calls for old rules. -/
def oldSystemId : String :=
  "http://www.ibm.com/data/dtd/v11/ibmxhtml1-transitional.dtd"

/-- Does a text start with one of the given texts? -/
def startsWithAny (starts : List String) (text : String) : Bool :=
  starts.any fun start => start.toList.isPrefixOf text.toList

/-- Does a declaration call for the rules of old documents? -/
def callsForOldRules (declaration : Doctype) : Bool :=
  let publicId := Text.asciiLower (declaration.publicId.getD "")
  !declaration.correct || declaration.name != "html" ||
    startsWithAny oldPublicIds publicId || oldWholePublicIds.contains publicId ||
    (startsWithAny oldBarePublicIds publicId && declaration.systemId.isNone) ||
    declaration.systemId.any fun systemId => Text.lower systemId == oldSystemId

end Winnow.Html.Vocabulary
