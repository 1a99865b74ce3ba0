import Mathlib.Data.List.Count
import Winnow.Proofs.Html.Rooted.Run
import Winnow.Proofs.Policy
import Winnow.Reference

/-!
# The policy of a reference document

The rules of a document name every element of it and every attribute, and they are read as they
are meant if the names can stand in rules. Then the budget of a name is the number of elements of
this name, and exactly the attributes that occur with a name are allowed for it.
-/

namespace Winnow

/-- The names of the attributes of an element, each with that of the element, in lower case. -/
def Label.uses (label : Label) : List (String × String) :=
  label.attributes.map fun entry => (Text.lower label.tag, Text.lower entry.1)

/-- Do the names of an element and of its attributes, in lower case, hold no bars, and have they
no blanks at their ends? -/
def Label.hasPlainNames (label : Label) : Bool :=
  Rule.isPlainName (Text.lower label.tag) &&
    label.attributes.all fun entry => Rule.isPlainName (Text.lower entry.1)

/-- Can rules name an element and its attributes? -/
structure Label.IsNamed (label : Label) : Prop where
  tag : Rule.IsName (Text.lower label.tag)
  attributes : ∀ entry ∈ label.attributes, Rule.IsName (Text.lower entry.1)

namespace Inventory

/-! ## The lines of an inventory -/

/-- The lines with element names. -/
def tagLines (table : Assoc Nat) : List String :=
  table.flatMap fun entry => List.replicate entry.2 entry.1

theorem lines_eq (inventory : Inventory) : inventory.lines = tagLines inventory.elements ++
    inventory.attributes.pairs.map fun pair => pair.1 ++ "|" ++ pair.2 := by
  rw [lines, Assoc.pairs, List.map_flatMap]
  simp only [List.map_map]
  rfl

/-- One more element of a name makes one more line. -/
theorem perm_tagLines_put (table : Assoc Nat) (tag : String) :
    (tagLines (table.put tag ((table.find? tag).getD 0 + 1))).Perm (tag :: tagLines table) := by
  induction table with
  | nil => exact List.Perm.refl _
  | cons entry rest ih =>
      unfold tagLines at ih ⊢
      rw [Assoc.find?_cons, Assoc.put]
      split
      next htag =>
        subst htag
        rw [List.flatMap_cons, List.flatMap_cons, Option.getD_some, List.replicate_succ]
        exact List.Perm.refl _
      next =>
        rw [List.flatMap_cons, List.flatMap_cons]
        exact (ih.append_left _).trans List.perm_middle

theorem perm_tagLines_foldl (labels : List Label) (inventory : Inventory) :
    (tagLines (labels.foldl addElement inventory).elements).Perm
      (labels.map (fun label => Text.lower label.tag) ++ tagLines inventory.elements) := by
  induction labels generalizing inventory with
  | nil => exact List.Perm.refl _
  | cons label rest ih =>
      refine (ih (inventory.addElement label)).trans ?_
      exact ((perm_tagLines_put _ _).append_left _).trans List.perm_middle

theorem mem_pairs_addElement {inventory : Inventory} {label : Label} {pair : String × String} :
    pair ∈ (inventory.addElement label).attributes.pairs ↔
      pair ∈ inventory.attributes.pairs ∨ pair ∈ label.uses := by
  have hfold : ∀ (attributes : Attributes) (table : Assoc (List String)),
      pair ∈ (attributes.foldl (fun table entry =>
        Policy.grant table (Text.lower label.tag) (Text.lower entry.1)) table).pairs ↔
      pair ∈ table.pairs ∨
        pair ∈ attributes.map fun entry => (Text.lower label.tag, Text.lower entry.1) := by
    intro attributes
    induction attributes with
    | nil => simp
    | cons entry rest ih =>
        intro table
        rw [List.foldl_cons, ih, Policy.mem_pairs_grant, List.map_cons, List.mem_cons, or_assoc]
  exact hfold label.attributes inventory.attributes

theorem mem_pairs_foldl {labels : List Label} {inventory : Inventory} {pair : String × String} :
    pair ∈ (labels.foldl addElement inventory).attributes.pairs ↔
      pair ∈ inventory.attributes.pairs ∨ ∃ label ∈ labels, pair ∈ label.uses := by
  induction labels generalizing inventory with
  | nil => simp
  | cons label rest ih =>
      rw [List.foldl_cons, ih, mem_pairs_addElement, or_assoc]
      simp only [List.mem_cons, exists_eq_or_imp]

/-! ## The lines as rules -/

/-- The inventory of elements that are met in this order. -/
def ofLabels (labels : List Label) : Inventory := labels.foldl addElement {}

theorem perm_tagLines_ofLabels (labels : List Label) :
    (tagLines (ofLabels labels).elements).Perm (labels.map fun label => Text.lower label.tag) := by
  have hempty : tagLines ({} : Inventory).elements = [] := rfl
  have hperm := perm_tagLines_foldl labels {}
  rwa [hempty, List.append_nil] at hperm

theorem mem_pairs_ofLabels {labels : List Label} {pair : String × String} :
    pair ∈ (ofLabels labels).attributes.pairs ↔ ∃ label ∈ labels, pair ∈ label.uses :=
  mem_pairs_foldl.trans (or_iff_right List.not_mem_nil)

/-- The line of a tag rule is an element name, and the line of an attribute rule is a pair. -/
theorem map_parse_lines {labels : List Label} (hnamed : ∀ label ∈ labels, label.IsNamed) :
    (ofLabels labels).lines.map Rule.parse = (tagLines (ofLabels labels).elements).map .tag ++
      (ofLabels labels).attributes.pairs.map fun pair => .attribute pair.1 pair.2 := by
  have htags : ∀ tag ∈ tagLines (ofLabels labels).elements, Rule.parse tag = .tag tag := by
    intro tag hmem
    obtain ⟨label, hlabel, rfl⟩ :=
      List.mem_map.mp ((perm_tagLines_ofLabels labels).mem_iff.mp hmem)
    exact Rule.parse_tag (hnamed label hlabel).tag
  have hpairs : ∀ pair ∈ (ofLabels labels).attributes.pairs,
      Rule.parse (pair.1 ++ "|" ++ pair.2) = .attribute pair.1 pair.2 := by
    intro pair hmem
    obtain ⟨label, hlabel, huse⟩ := mem_pairs_ofLabels.mp hmem
    obtain ⟨entry, hentry, rfl⟩ := List.mem_map.mp huse
    exact Rule.parse_pair (hnamed label hlabel).tag ((hnamed label hlabel).attributes entry hentry)
  rw [lines_eq, List.map_append, List.map_map, List.map_congr_left htags]
  exact congrArg _ (List.map_congr_left hpairs)

variable {labels : List Label} (hnamed : ∀ label ∈ labels, label.IsNamed) (config : Config)
include hnamed

/-- The budget of a name is the number of elements of this name. -/
theorem budgetFor_lines (tag : String) :
    (Policy.ofLines (ofLabels labels).lines config).budgetFor tag =
      labels.countP fun label => Text.lower label.tag == tag := by
  have hinjective : Function.Injective Rule.tag := fun _ _ heq => Rule.tag.inj heq
  have hpairs : Rule.tag tag ∉ (ofLabels labels).attributes.pairs.map fun pair =>
      .attribute pair.1 pair.2 := by simp
  calc (Policy.ofLines (ofLabels labels).lines config).budgetFor tag
    _ = ((ofLabels labels).lines.map Rule.parse).count (.tag tag) :=
        Policy.budgetFor_ofRules _ config tag
    _ = ((tagLines (ofLabels labels).elements).map Rule.tag).count (.tag tag) := by
        rw [map_parse_lines hnamed, List.count_append, List.count_eq_zero_of_not_mem hpairs,
          Nat.add_zero]
    _ = (tagLines (ofLabels labels).elements).count tag :=
        List.count_map_of_injective _ _ hinjective tag
    _ = (labels.map fun label => Text.lower label.tag).count tag :=
        (perm_tagLines_ofLabels labels).count_eq tag
    _ = labels.countP fun label => Text.lower label.tag == tag := by
        rw [List.count_eq_countP, List.countP_map]
        rfl

/-- The attributes that occur with a name are those that are listed for it. -/
theorem mem_listed_lines {tag name : String} :
    name ∈ ((Policy.ofLines (ofLabels labels).lines config).attrAllow.find? tag).getD [] ↔
      ∃ label ∈ labels, (tag, name) ∈ label.uses := by
  have hattribute : Rule.attribute tag name ∈ (ofLabels labels).lines.map Rule.parse ↔
      (tag, name) ∈ (ofLabels labels).attributes.pairs := by
    rw [map_parse_lines hnamed]
    simp
  rw [Policy.ofLines, Policy.mem_listed_ofRules, hattribute, mem_pairs_ofLabels]

theorem styleAllow_lines :
    (Policy.ofLines (ofLabels labels).lines config).styleAllow = [] := by
  refine Policy.styleAllow_ofRules fun selector property hmem => ?_
  rw [map_parse_lines hnamed] at hmem
  simp at hmem

end Inventory

/-! ## The names of a document that is read -/

namespace Html

/-- Plain names of an element that is read can stand in rules. -/
theorem Source.Gives.isNamed {label : Label} (hgives : Source.lexed.Gives label)
    (helement : label.isElement = true) (hplain : label.hasPlainNames = true) :
    label.IsNamed := by
  have hname : ∀ {name : String}, name ≠ "" → Rule.isPlainName (Text.lower name) = true →
      Rule.IsName (Text.lower name) :=
    fun hne hname => ⟨hname, Text.lower_ne_empty hne, Text.lower_lower _⟩
  obtain ⟨htag, hattributes⟩ := hgives.of_isElement helement
  rw [Label.hasPlainNames, Bool.and_eq_true, List.all_eq_true] at hplain
  exact ⟨hname htag.ne_empty hplain.1, fun entry hmem =>
    hname (hattributes entry hmem).ne_empty (hplain.2 entry hmem)⟩

end Html

section Document

variable {text : String} {document : Tree} (hparse : Html.parse text = .ok document)
include hparse

/-- The inventory of a document that is read is that of all its elements. -/
theorem Inventory.ofDocument_eq :
    Inventory.ofDocument document = ofLabels (document.elements.map Tree.label) := by
  rw [(Html.elements_of_parse hparse).2, ofDocument]
  cases document.rootElement? with
  | none => rfl
  | some root => rfl

theorem Reference.rules_eq :
    Reference.rules text = .ok (Inventory.ofLabels (document.elements.map Tree.label)).lines := by
  rw [rules, ofText, hparse, Fault.ok_bind, Inventory.ofDocument_eq hparse]
  rfl

/-- Plain names of a document that is read can stand in rules. -/
theorem Reference.isNamed_of_parse
    (hplain : ∀ element ∈ document.elements, element.label.hasPlainNames = true) :
    ∀ label ∈ document.elements.map Tree.label, label.IsNamed := by
  intro label hmem
  obtain ⟨element, helement, rfl⟩ := List.mem_map.mp hmem
  have hpart := List.mem_filter.mp helement
  exact (Html.all_gives_of_parse Html.Source.steady_lexed trivial hparse element hpart.1).isNamed
    hpart.2 (hplain element helement)

end Document

/-!
## What the rules of a document mean

The rules of a document that is read mean exactly its markup if and only if the names in it are
plain. A name with a bar makes a line with one segment more, and blanks at the ends of a name are
trimmed off it, so rules cannot name the elements and attributes of such names.
-/

/-- Does a policy mean exactly these elements: is the budget of a name the number of those of this
name, are the attributes that occur with a name those that are listed for it, and is no style
allowed? -/
structure Policy.Describes (policy : Policy) (labels : List Label) : Prop where
  budget : ∀ tag, policy.budgetFor tag = labels.countP fun label => Text.lower label.tag == tag
  attributes : ∀ tag name,
    name ∈ (policy.attrAllow.find? tag).getD [] ↔ ∃ label ∈ labels, (tag, name) ∈ label.uses
  styles : policy.styleAllow = []

namespace Inventory

variable {labels : List Label} {config : Config}

theorem describes_lines (hnamed : ∀ label ∈ labels, label.IsNamed) :
    (Policy.ofLines (ofLabels labels).lines config).Describes labels where
  budget := budgetFor_lines hnamed config
  attributes _ _ := mem_listed_lines hnamed config
  styles := styleAllow_lines hnamed config

end Inventory

namespace Policy

variable {lines : List String} {labels : List Label} {config : Config}

/-- Lines admit elements and attributes of plain names only. -/
theorem Describes.hasPlainNames (hdescribes : (ofLines lines config).Describes labels)
    {label : Label} (hmem : label ∈ labels) : label.hasPlainNames = true := by
  have hplain : ∀ {rule : Rule} {name : String}, rule ∈ lines.map Rule.parse →
      name ∈ rule.names → Rule.isPlainName name = true := by
    rintro rule name hrule hname
    obtain ⟨line, -, rfl⟩ := List.mem_map.mp hrule
    exact Rule.isPlainName_of_mem_names hname
  rw [Label.hasPlainNames, Bool.and_eq_true, List.all_eq_true]
  constructor
  · have hbudget := hdescribes.budget (Text.lower label.tag)
    have hcount : 0 < labels.countP fun other => Text.lower other.tag == Text.lower label.tag :=
      List.countP_pos_iff.mpr ⟨label, hmem, beq_self_eq_true _⟩
    rw [ofLines, budgetFor_ofRules] at hbudget
    exact hplain (List.count_pos_iff.mp (hbudget ▸ hcount)) (by simp [Rule.names])
  · intro entry hentry
    have hlisted := (hdescribes.attributes (Text.lower label.tag) (Text.lower entry.1)).mpr
      ⟨label, hmem, List.mem_map_of_mem hentry⟩
    exact hplain (mem_listed_ofRules.mp hlisted) (by simp [Rule.names])

end Policy

namespace Reference

/-- The rules of a document that is read mean exactly the document if and only if all names in it
are plain. -/
theorem describes_iff {text : String} {document : Tree} (hparse : Html.parse text = .ok document) :
    ∃ lines policy, rules text = .ok lines ∧ Policy.compile (Rule.lines lines) .null = .ok policy ∧
      (policy.Describes (document.elements.map Tree.label) ↔
        ∀ element ∈ document.elements, element.label.hasPlainNames = true) := by
  have hconfig : Config.ofValue .null = .ok {} := rfl
  refine ⟨_, _, rules_eq hparse, Policy.compile_lines _ hconfig, fun hdescribes => ?_,
    fun hplain => Inventory.describes_lines (isNamed_of_parse hparse hplain)⟩
  exact fun element hmem => hdescribes.hasPlainNames (List.mem_map_of_mem hmem)

theorem describes_iff_sample :
    ∃ document lines policy, Html.parse "<p Id=a><P class=b id>" = .ok document ∧
      rules "<p Id=a><P class=b id>" = .ok lines ∧
      Policy.compile (Rule.lines lines) .null = .ok policy ∧
      policy.Describes (document.elements.map Tree.label) := by
  have hplain : ((Html.parse "<p Id=a><P class=b id>").map fun document =>
      document.elements.all (·.label.hasPlainNames)) = .ok true := by decide +kernel
  obtain ⟨document, hparse, hall⟩ := Fault.exists_of_map_eq_ok hplain
  obtain ⟨lines, policy, hrules, hcompile, hiff⟩ := describes_iff hparse
  exact ⟨document, lines, policy, hparse, hrules, hcompile,
    hiff.mpr fun element hmem => List.all_eq_true.mp hall element hmem⟩

/-- The rule of an element with a bar in its name is read as that of an attribute. -/
theorem not_describes_barred :
    ∃ document lines policy, Html.parse "<p|q></p|q>" = .ok document ∧
      rules "<p|q></p|q>" = .ok lines ∧ Policy.compile (Rule.lines lines) .null = .ok policy ∧
      ¬ policy.Describes (document.elements.map Tree.label) := by
  have hbarred : ((Html.parse "<p|q></p|q>").map fun document =>
      document.elements.all (·.label.hasPlainNames)) = .ok false := by decide +kernel
  obtain ⟨document, hparse, hall⟩ := Fault.exists_of_map_eq_ok hbarred
  have hconfig : Config.ofValue .null = .ok {} := rfl
  refine ⟨document, _, _, hparse, rules_eq hparse, Policy.compile_lines _ hconfig,
    fun hdescribes => List.all_eq_false.mp hall |>.elim ?_⟩
  rintro element ⟨hmem, hnot⟩
  exact hnot (hdescribes.hasPlainNames (List.mem_map_of_mem hmem))

end Reference

end Winnow
