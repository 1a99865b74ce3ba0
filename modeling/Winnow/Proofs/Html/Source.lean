import Winnow.Html.Construction
import Winnow.Proofs.Store.Links

/-!
# Where the names in a document come from

The elements of a document that is being built are those of the start tags that were read,
up to the capitals of foreign names, and a few that every document has or that an old tag
stands for. What holds of the tags and comments that are read therefore holds of the nodes.
-/

namespace Winnow.Html

/-- The elements that are made without a start tag of their name. -/
def madeTags : List String := [
  "html", "head", "body", "p", "br", "colgroup", "tbody", "tr", "form", "hr", "label", "input",
  "img"]

/-- The elements whose content is read as text. -/
def textTags : List String := [
  "title", "textarea", "style", "xmp", "iframe", "noembed", "noframes", "noscript", "script",
  "plaintext"]

/-- The names that an attribute of this name may have on an element. -/
def attributeForms (name : String) : List String := [
  name, Vocabulary.restoreCase Vocabulary.svgAttributeNames name,
  Vocabulary.restoreCase Vocabulary.mathAttributeNames name]

/-- What holds of a name and of all known names holds of the name with its capitals. -/
theorem Vocabulary.restoreCase_cases {p : String → Prop} {known : List String} {name : String}
    (hknown : ∀ name ∈ known, p name) (hname : p name) : p (restoreCase known name) := by
  unfold restoreCase
  split
  · cases hfind : known.find? fun capital => Text.asciiLower capital == name with
    | none => exact hname
    | some capital => exact hknown capital (List.mem_of_find?_eq_some hfind)
  · exact hname

/-- What start tags and comments may say. -/
structure Source where
  tag : String → Prop
  pair : String → String → Prop
  comment : String → Prop
  /-- May the namespace of an attribute be part of its name, as it is in a fragment? -/
  expands : Prop := False

namespace Source

variable (source : Source)

/-- Is this the name of an element that a start tag may open? -/
def GivesTag (tag : String) : Prop :=
  tag ∈ madeTags ∨ ∃ name, source.tag name ∧
    (tag = name ∨ tag = Vocabulary.restoreCase Vocabulary.svgElementNames name)

/-- May an element of a tag have this name with this value? A search form has the name of its
field from nowhere. -/
def GivesPair (name value : String) : Prop :=
  (name = "name" ∧ value = "isindex") ∨
    ∃ plain, source.pair plain value ∧ name ∈ attributeForms plain

/-- May an element have this attribute? -/
def GivesAttribute (entry : String × Option String) : Prop :=
  ∃ name value, source.GivesPair name value ∧ entry.2 = some value ∧
    (entry.1 = name ∨ (source.expands ∧ entry.1 = Vocabulary.expandedName name))

/-- May this be what a node of the document is? -/
inductive Gives (label : Label) : Prop
  | text (htag : label.tag = "#text")
  | document (htag : label.tag = "#document")
  | comment (htag : label.tag = "#comment") (hcomment : source.comment label.text)
  | element (htag : source.GivesTag label.tag)
      (hattributes : ∀ entry ∈ label.attributes, source.GivesAttribute entry)

/-- May this tag be read? -/
structure Writes (tag : Tag) : Prop where
  named : source.tag tag.name
  pairs : ∀ entry ∈ tag.attributes, source.pair entry.1 entry.2

/-- May this tag be taken after the capitals of its names have been restored? -/
structure Covers (tag : Tag) : Prop where
  named : source.GivesTag tag.name
  pairs : ∀ entry ∈ tag.attributes, source.GivesPair entry.1 entry.2

/-- May this token be read? If all is to stay quiet, no token asks for content that is
read as text. -/
def Yields (quiet : Prop) : Token → Prop
  | .startTag tag => source.Writes tag ∧ (quiet → tag.name ∉ textTags)
  | .comment data => source.comment data
  | _ => True

variable {source}

theorem GivesTag.of_made {tag : String} (hmade : tag ∈ madeTags) : source.GivesTag tag :=
  Or.inl hmade

theorem GivesPair.of_pair {name value : String} (hpair : source.pair name value) :
    source.GivesPair name value :=
  Or.inr ⟨name, hpair, List.mem_cons_self⟩

namespace Writes

variable {tag : Tag} (hwrites : source.Writes tag)
include hwrites

theorem covers : source.Covers tag where
  named := Or.inr ⟨tag.name, hwrites.named, Or.inl rfl⟩
  pairs entry hmem := .of_pair (hwrites.pairs entry hmem)

end Writes

/-- The nodes that are elements have the names and the attributes of tags. -/
theorem Gives.of_isElement {label : Label} (hgives : source.Gives label)
    (helement : label.isElement = true) :
    source.GivesTag label.tag ∧ ∀ entry ∈ label.attributes, source.GivesAttribute entry := by
  have hother : ∀ tag : String, tag.toList.head? = some '#' → label.tag ≠ tag := by
    rintro tag hhead rfl
    simp [Label.isElement, hhead] at helement
  cases hgives with
  | text htag => exact absurd htag (hother _ (by decide))
  | document htag => exact absurd htag (hother _ (by decide))
  | comment htag => exact absurd htag (hother _ (by decide))
  | element htag hattributes => exact ⟨htag, hattributes⟩

theorem gives_ofText (text : String) : source.Gives (.ofText text) := .text rfl

theorem gives_ofComment {data : String} (hdata : source.comment data) :
    source.Gives (.ofComment data) :=
  .comment rfl hdata

end Source

end Winnow.Html
