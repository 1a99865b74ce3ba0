import Winnow.Proofs.Html.Source
import Winnow.Proofs.Policy
import Winnow.Proofs.Text.Lowercase
import Winnow.Screen.Names
import Winnow.Screen.Piece

/-!
# The tables of a screen

A screen is made for the names of a policy, which are in lower case. It holds them as they are,
with the capitals that it knows, and, for attributes to which the parser gives a namespace, their
local parts.
-/

namespace Winnow

open Html

/-- The name under which a screen meets an attribute of an element: its local name if the parser
has given it a namespace. -/
def Label.comparedName (label : Label) (name : String) : String :=
  if label.space ≠ .html ∧ Vocabulary.isSpaced name = true then
    (Screen.Key.ofName (Vocabulary.expandedName name)).name
  else name

namespace Screen

open Vocabulary

/-- The key of an attribute that is read in a fragment has the compared name, if no brace is in
front of it. -/
theorem name_ofName_attribute (label : Label) {name : String}
    (hbrace : name.toList.head? ≠ some '\x7b') :
    (Key.ofName (if label.space = .html then name else expandedName name)).name =
      label.comparedName name := by
  have hplain : (Key.ofName name).name = name := by
    unfold Key.ofName
    split
    next cs hchars =>
      rw [hchars] at hbrace
      exact absurd rfl hbrace
    next => rfl
  unfold Label.comparedName
  by_cases hspace : label.space = .html
  · rw [if_pos hspace, if_neg fun h => h.1 hspace, hplain]
  · rw [if_neg hspace]
    by_cases hspaced : isSpaced name = true
    · rw [if_pos ⟨hspace, hspaced⟩]
    · have hnone : spacedAttributes.find? (·.1 == name) = none :=
        List.find?_eq_none.mpr (List.any_eq_false.mp (Bool.eq_false_iff.mpr hspaced))
      rw [if_neg fun h => hspaced h.2, expandedName, hnone, hplain]

/-! ## Names with their capitals -/

section Forms

variable {names cased : List String} {name : String}

/-- Of the names that are allowed in lower case, those pass that have no capital letters beyond
ASCII and no other ones than the parser restores. -/
theorem mem_append_casedForms_iff (hnames : ∀ name ∈ names, Text.lower name = name)
    (hcased : ∀ name ∈ cased, ∀ c ∈ name.toList, c.toNat < 0x80)
    (hname : Text.lower name ∈ names) :
    name ∈ names ++ casedForms cased names ↔
      Text.lower name = Text.asciiLower name ∧ (Text.asciiLower name = name ∨ name ∈ cased) := by
  rw [List.mem_append]
  constructor
  · rintro (hmem | hmem)
    · have hlower := hnames name hmem
      have hascii := Text.asciiLower_eq_self_of_lower_eq hlower
      exact ⟨hlower.trans hascii.symm, Or.inl hascii⟩
    · have hmem := (List.mem_filter.mp hmem).1
      exact ⟨Text.lower_eq_asciiLower (hcased name hmem), Or.inr hmem⟩
  · rintro ⟨hlower, hascii | hmem⟩
    · rw [hlower, hascii] at hname
      exact Or.inl hname
    · refine Or.inr (List.mem_filter.mpr ⟨hmem, ?_⟩)
      rw [List.contains_iff_mem, ← hlower]
      exact hname

/-- The local part of a name in lower case is in lower case. -/
theorem lower_of_mem_localNames (hnames : ∀ name ∈ names, Text.lower name = name)
    (hmem : name ∈ localNames names) : Text.lower name = name := by
  obtain ⟨whole, hwhole, hlocal⟩ := List.mem_filterMap.mp hmem
  split at hlocal
  next first cs hrest =>
    cases hlocal
    refine Text.lower_eq_self_iff.mpr fun c hc => ?_
    rw [String.toList_ofList] at hc
    have hsuffix : first :: cs <:+ whole.toList := hrest ▸ List.dropWhile_suffix _
    exact Text.lower_eq_self_iff.mp (hnames whole hwhole) c
      (hsuffix.subset (List.mem_cons_of_mem _ hc))
  next => cases hlocal

end Forms

theorem ascii_of_all {names : List String}
    (hall : (names.all fun name => name.toList.all fun c => decide (c.toNat < 0x80)) = true) :
    ∀ name ∈ names, ∀ c ∈ name.toList, c.toNat < 0x80 := by
  simpa using hall

theorem ascii_casedTags : ∀ name ∈ casedTags, ∀ c ∈ name.toList, c.toNat < 0x80 :=
  ascii_of_all (by decide +kernel)

theorem ascii_casedAttributes :
    ∀ name ∈ casedAttributes, ∀ c ∈ name.toList, c.toNat < 0x80 :=
  ascii_of_all (by decide +kernel)

/-! ## Names that the parser changes -/

/-- A name to which the parser gives a namespace is in lower case, and its local name is a part
of it. -/
theorem of_isSpaced {name : String} (hspaced : isSpaced name = true) :
    Text.lower name = name ∧ name ∉ uncasedAttributes ∧
      (Key.ofName (expandedName name)).name ∈ name :: localNames [name] := by
  have hknown : ∀ entry ∈ spacedAttributes, Text.lower entry.1 = entry.1 ∧
      entry.1 ∉ uncasedAttributes ∧
        (Key.ofName (expandedName entry.1)).name ∈ entry.1 :: localNames [entry.1] := by
    decide +kernel
  obtain ⟨entry, hentry, heq⟩ := List.any_eq_true.mp hspaced
  rw [← beq_iff_eq.mp heq]
  exact hknown entry hentry

/-- Are the capital letters of ASCII in the name of an attribute those that the parser restores? -/
def IsRestored (name : String) : Prop :=
  Text.asciiLower name = name ∨ name ∈ mathAttributeNames ++ svgAttributeNames

theorem isRestored_restoreCase {known : List String} {name : String}
    (hknown : known ⊆ mathAttributeNames ++ svgAttributeNames) (hname : Text.asciiLower name = name) :
    IsRestored (restoreCase known name) :=
  restoreCase_cases (p := IsRestored) (fun _ hmem => Or.inr (hknown hmem)) (Or.inl hname)

/-- The capitals that the parser restores are those that the screen knows, but for four names. -/
theorem IsRestored.iff_not_mem_uncased {name : String} (hrestored : IsRestored name) :
    (Text.asciiLower name = name ∨ name ∈ casedAttributes) ↔ name ∉ uncasedAttributes := by
  have huncased : ∀ name ∈ uncasedAttributes, Text.asciiLower name ≠ name ∧
      name ∉ casedAttributes := by decide
  constructor
  · exact fun hname hmem => hname.elim (huncased name hmem).1 (huncased name hmem).2
  · intro hmem
    refine hrestored.imp_right fun hknown => ?_
    rcases List.mem_append.mp hknown with hmath | hsvg
    · exact List.mem_append_left _ hmath
    · exact List.mem_append_right _ (List.mem_filter.mpr ⟨hsvg, by simpa using hmem⟩)

end Screen

/-! ## Names of a policy -/

namespace Policy

variable {policy : Policy}

/-- The names of the elements that a screen of a policy is made for. -/
def screenedTags (policy : Policy) : List String :=
  ((policy.tagBudget.filter fun entry => decide (0 < entry.2)).map (·.1) ++
    structuralTags).filter fun tag => policy.config.allowJavaScript || tag != "script"

/-- The names of the attributes that a policy allows on any elements. -/
def namedAttributes (policy : Policy) : List String :=
  policy.attrAllow.flatMap (·.2) ++
    if policy.config.allowCommonAttributes then
      conventionalEverywhere ++ conventionalByTag.flatMap (·.2)
    else []

/-- The names of the attributes that a screen of a policy is made for. -/
def screenedAttributes (policy : Policy) : List String :=
  policy.namedAttributes ++ Screen.localNames policy.namedAttributes

theorem mem_screen_tags {name : String} : name ∈ policy.screen.tags ↔
    name ∈ policy.screenedTags ++ Screen.casedForms Screen.casedTags policy.screenedTags :=
  mem_distinct

theorem mem_screen_attributes {name : String} : name ∈ policy.screen.attributes ↔
    name ∈ policy.screenedAttributes ++
      Screen.casedForms Screen.casedAttributes policy.screenedAttributes :=
  mem_distinct

theorem mem_namedAttributes_of_allowed {tag name : String}
    (hallowed : name ∈ policy.allowedAttributes tag) : name ∈ policy.namedAttributes := by
  have hunder : ∀ {table : Assoc (List String)}, name ∈ (table.find? tag).getD [] →
      name ∈ table.flatMap (·.2) := fun hmem => List.mem_flatMap.mpr (Assoc.exists_of_mem_getD hmem)
  unfold allowedAttributes at hallowed
  unfold namedAttributes
  dsimp only at hallowed
  split at hallowed
  next hcommon =>
    rw [mem_distinct, List.mem_append, List.mem_append] at hallowed
    rw [if_pos hcommon, List.mem_append, List.mem_append]
    rcases hallowed with (hmem | hmem) | hmem
    · exact Or.inl (hunder hmem)
    · exact Or.inr (Or.inl hmem)
    · exact Or.inr (Or.inr (hunder hmem))
  next hcommon =>
    rw [mem_distinct] at hallowed
    exact List.mem_append_left _ (hunder hallowed)

section Compiled

variable {rules : List Value} {config : Config}

theorem lower_of_mem_rules {rule : Rule} {name : String} (hrule : rule ∈ rules.map Rule.ofValue)
    (hname : name ∈ rule.names) : Text.lower name = name := by
  obtain ⟨value, -, rfl⟩ := List.mem_map.mp hrule
  exact Rule.lower_of_mem_names hname

theorem lower_screenedTags :
    ∀ name ∈ (ofRules (rules.map Rule.ofValue) config).screenedTags, Text.lower name = name := by
  intro name hmem
  have hstructural : ∀ name ∈ structuralTags, Text.lower name = name := by decide
  rcases List.mem_append.mp (List.mem_filter.mp hmem).1 with hbudgeted | hmem
  · obtain ⟨entry, hentry, rfl⟩ := List.mem_map.mp hbudgeted
    exact lower_of_mem_rules (mem_of_mem_tagBudget (List.mem_filter.mp hentry).1)
      (List.mem_singleton_self _)
  · exact hstructural name hmem

theorem lower_namedAttributes :
    ∀ name ∈ (ofRules (rules.map Rule.ofValue) config).namedAttributes, Text.lower name = name := by
  have hconventional : ∀ name ∈ conventionalEverywhere ++ conventionalByTag.flatMap (·.2),
      Text.lower name = name := by decide
  intro name hmem
  rcases List.mem_append.mp hmem with hlisted | hmem
  · obtain ⟨entry, hentry, hname⟩ := List.mem_flatMap.mp hlisted
    have hpair : (entry.1, name) ∈ (ofRules (rules.map Rule.ofValue) config).attrAllow.pairs :=
      List.mem_flatMap.mpr ⟨entry, hentry, List.mem_map_of_mem hname⟩
    exact lower_of_mem_rules (mem_pairs_ofRules.mp hpair) (by simp [Rule.names])
  · split at hmem
    next => exact hconventional name hmem
    next => cases hmem

theorem lower_screenedAttributes :
    ∀ name ∈ (ofRules (rules.map Rule.ofValue) config).screenedAttributes,
      Text.lower name = name := by
  intro name hmem
  rcases List.mem_append.mp hmem with hwhole | hlocal
  · exact lower_namedAttributes name hwhole
  · exact Screen.lower_of_mem_localNames lower_namedAttributes hlocal

end Compiled

end Policy

end Winnow
