import Winnow.Proofs.Enforcement.Left
import Winnow.Proofs.Html.Lexer.Read
import Winnow.Proofs.Html.Rooted.Run
import Winnow.Proofs.Screen.Tables

/-!
# Names that a screen lets through

A policy compares names in lower case, and a screen compares them in the case in which they are
read. It lets through what the policy has left, except for names with capital letters beyond
ASCII, which the parser leaves as they are, and for the SVG attributes whose capitals it restores
but the screen does not know.
-/

namespace Winnow

open Html

/-! ## Names of a document that is read -/

namespace Html.Source

/-- The capitals of an element name that are in it after the tag has been read are restored ones. -/
theorem GivesTag.cased {tag : String} (hgives : Source.lexed.GivesTag tag) :
    Text.asciiLower tag = tag ∨ tag ∈ Screen.casedTags := by
  have hmade : ∀ tag ∈ madeTags, Text.asciiLower tag = tag := by decide
  have hplain : ∀ {name : String}, IsLower name.toList → Text.asciiLower name = name :=
    fun hlower => Text.asciiLower_eq_self hlower
  rcases hgives with hmem | ⟨name, ⟨-, hlower⟩, rfl | rfl⟩
  · exact Or.inl (hmade tag hmem)
  · exact Or.inl (hplain hlower)
  · exact Vocabulary.restoreCase_cases
      (p := fun tag => Text.asciiLower tag = tag ∨ tag ∈ Screen.casedTags)
      (fun known hmem => Or.inr (List.mem_cons_of_mem _ hmem)) (Or.inl (hplain hlower))

theorem GivesAttribute.isRestored {entry : String × Option String}
    (hgives : Source.lexed.GivesAttribute entry) : Screen.IsRestored entry.1 := by
  obtain ⟨name, value, hpair, -, heq | ⟨hexpands, -⟩⟩ := hgives
  · rw [heq]
    rcases hpair with ⟨rfl, -⟩ | ⟨plain, ⟨-, hlower⟩, hform⟩
    · exact Or.inl (by decide)
    · have hplain := Text.asciiLower_eq_self hlower
      simp only [attributeForms, List.mem_cons, List.not_mem_nil, or_false] at hform
      rcases hform with rfl | rfl | rfl
      · exact Or.inl hplain
      · exact Screen.isRestored_restoreCase (List.subset_append_right _ _) hplain
      · exact Screen.isRestored_restoreCase (List.subset_append_left _ _) hplain
  · exact hexpands.elim

end Html.Source

/-! ## What the screen strips -/

namespace Policy

variable {rules : List Value} {config : Config} {before after : Label}

/-- An element that complies is named in the screen. -/
theorem Complies.mem_screenedTags {policy : Policy}
    (hcomplies : policy.Complies before after) :
    Text.lower after.tag ∈ policy.screenedTags := by
  refine List.mem_filter.mpr ⟨?_, ?_⟩
  · rw [List.mem_append]
    cases hstructural : isStructural (Text.lower after.tag) with
    | true => exact Or.inr (List.contains_iff_mem.mp hstructural)
    | false =>
        have hbudget := (hcomplies.budget hstructural).trans_le (policy.effectiveBudget_le _)
        unfold budgetFor at hbudget
        cases hfind : policy.tagBudget.find? (Text.lower after.tag) with
        | none =>
            rw [hfind] at hbudget
            cases hbudget
        | some count =>
            rw [hfind] at hbudget
            exact Or.inl (List.mem_map.mpr ⟨_, List.mem_filter.mpr
              ⟨Assoc.mem_of_find? hfind, by simpa using hbudget⟩, rfl⟩)
  · have hallowed := hcomplies.allowed
    rw [forbids, Bool.or_eq_false_iff] at hallowed
    cases hscripts : policy.config.allowJavaScript with
    | true => rfl
    | false =>
        rw [hscripts] at hallowed
        simpa using hallowed.1

theorem mem_screen_tags_iff (hgives : Source.lexed.GivesTag after.tag)
    (hcomplies : (ofRules (rules.map Rule.ofValue) config).Complies before after) :
    after.tag ∈ (ofRules (rules.map Rule.ofValue) config).screen.tags ↔
      Text.lower after.tag = Text.asciiLower after.tag := by
  rw [mem_screen_tags, Screen.mem_append_casedForms_iff lower_screenedTags Screen.ascii_casedTags
    hcomplies.mem_screenedTags]
  exact and_iff_left hgives.cased

theorem mem_screen_attributes_iff {tag name : String} (hrestored : Screen.IsRestored name)
    (hallowed : Text.lower name ∈
      (ofRules (rules.map Rule.ofValue) config).allowedAttributes tag) :
    after.comparedName name ∈ (ofRules (rules.map Rule.ofValue) config).screen.attributes ↔
      Text.lower name = Text.asciiLower name ∧ name ∉ Screen.uncasedAttributes := by
  have hnamed := mem_namedAttributes_of_allowed hallowed
  unfold Label.comparedName
  split
  next hspaced =>
    obtain ⟨hlower, huncased, hlocal⟩ := Screen.of_isSpaced hspaced.2
    have hascii := Text.asciiLower_eq_self_of_lower_eq hlower
    rw [hlower] at hnamed
    refine iff_of_true (mem_screen_attributes.mpr (List.mem_append_left _ ?_))
      ⟨hlower.trans hascii.symm, huncased⟩
    rcases List.mem_cons.mp hlocal with heq | hmem
    · rw [heq]
      exact List.mem_append_left _ hnamed
    · obtain ⟨whole, hwhole, hpart⟩ := List.mem_filterMap.mp hmem
      rw [List.mem_singleton.mp hwhole] at hpart
      exact List.mem_append_right _ (List.mem_filterMap.mpr ⟨_, hnamed, hpart⟩)
  next =>
    rw [mem_screen_attributes, Screen.mem_append_casedForms_iff lower_screenedAttributes
      Screen.ascii_casedAttributes (List.mem_append_left _ hnamed), hrestored.iff_not_mem_uncased]

/-- What a policy has left of a document that is read passes the screen, but for names with
capital letters beyond ASCII and for four attributes of SVG. -/
theorem mem_screen_of_enforce {text : String} {document left : Tree} {rules config : Value}
    {policy : Policy} {tally : Tally} (hparse : Html.parse text = .ok document)
    (hcompile : compile rules config = .ok policy)
    (henforce : document.enforce policy = .ok (left, tally)) :
    ∀ element ∈ left.elements,
      (element.label.tag ∈ policy.screen.tags ↔
        Text.lower element.label.tag = Text.asciiLower element.label.tag) ∧
      ∀ entry ∈ element.label.attributes,
        (element.label.comparedName entry.1 ∈ policy.screen.attributes ↔
          Text.lower entry.1 = Text.asciiLower entry.1 ∧
            entry.1 ∉ Screen.uncasedAttributes) := by
  obtain ⟨items, -, hcompile⟩ := Fault.exists_of_bind_eq_ok hcompile
  obtain ⟨switches, -, hcompile⟩ := Fault.exists_of_bind_eq_ok hcompile
  cases hcompile
  intro element hmem
  obtain ⟨before, hbefore, hleaves⟩ :=
    Tree.exists_leaves_of_enforce (elements_of_parse hparse).1 henforce element hmem
  obtain ⟨hpart, helement⟩ := List.mem_filter.mp hbefore
  have hgives := all_gives_of_parse Source.steady_lexed trivial hparse before hpart
  obtain ⟨htag, hattributes⟩ := hgives.of_isElement helement
  have hcomplies := hleaves.complies
  refine ⟨mem_screen_tags_iff (hcomplies.tag ▸ htag) hcomplies, fun entry hentry => ?_⟩
  -- A style may have another value than it had, but no attribute has another name.
  obtain ⟨origin, horigin, heq⟩ := List.mem_map.mp
    (hcomplies.names.subset (List.mem_map_of_mem hentry))
  have hrestored := (hattributes origin horigin).isRestored
  rw [heq] at hrestored
  exact mem_screen_attributes_iff hrestored (hcomplies.granted entry hentry).allowed

/-- A page with names that the parser changes, and rules that admit it. -/
def castPage : String := "<svg viewbox=a XLINK:href=b><clippath>"

def castRules : List String := ["svg", "clippath", "svg|viewbox", "svg|xlink:href"]

theorem mem_screen_of_enforce_cast :
    ∃ document left tally, Html.parse castPage = .ok document ∧
      document.enforce (ofLines castRules {}) = .ok (left, tally) ∧
      ∀ element ∈ left.elements, element.label.tag ∈ (ofLines castRules {}).screen.tags ∧
        ∀ entry ∈ element.label.attributes,
          element.label.comparedName entry.1 ∈ (ofLines castRules {}).screen.attributes := by
  have hnames : ((Html.parse castPage >>= (·.enforce (ofLines castRules {}))).map fun reached =>
      reached.1.elements.all fun element =>
        Text.lower element.label.tag == Text.asciiLower element.label.tag &&
          element.label.attributes.all fun entry =>
            Text.lower entry.1 == Text.asciiLower entry.1 &&
              !Screen.uncasedAttributes.contains entry.1) = .ok true := by decide +kernel
  obtain ⟨⟨left, tally⟩, hpage, hall⟩ := Fault.exists_of_map_eq_ok hnames
  obtain ⟨document, hparse, henforce⟩ := Fault.exists_of_bind_eq_ok hpage
  have hconfig : Config.ofValue .null = .ok {} := rfl
  have hpasses := mem_screen_of_enforce hparse (compile_lines castRules hconfig) henforce
  refine ⟨document, left, tally, hparse, henforce, fun element hmem => ?_⟩
  have hplain := List.all_eq_true.mp hall element hmem
  simp only [Bool.and_eq_true, beq_iff_eq, List.all_eq_true, Bool.not_eq_true',
    List.contains_eq_mem, decide_eq_false_iff_not] at hplain
  obtain ⟨htag, hattributes⟩ := hpasses element hmem
  exact ⟨htag.mpr hplain.1, fun entry hentry =>
    (hattributes entry hentry).mpr (hplain.2 entry hentry)⟩

/-- An attribute that the policy allows and keeps, with capitals that the screen does not know. -/
theorem not_mem_screen_contentScriptType :
    ∃ document left tally, Html.parse "<svg contentScriptType=x></svg>" = .ok document ∧
      document.enforce (ofLines ["svg", "svg|contentscripttype"] {}) = .ok (left, tally) ∧
      ∃ element ∈ left.elements, ∃ entry ∈ element.label.attributes,
        element.label.comparedName entry.1 ∉
          (ofLines ["svg", "svg|contentscripttype"] {}).screen.attributes := by
  have hstripped : ((Html.parse "<svg contentScriptType=x></svg>" >>=
      (·.enforce (ofLines ["svg", "svg|contentscripttype"] {}))).map fun reached =>
        reached.1.elements.any fun element => element.label.attributes.any fun entry =>
          !(ofLines ["svg", "svg|contentscripttype"] {}).screen.attributes.contains
            (element.label.comparedName entry.1)) = .ok true := by decide +kernel
  obtain ⟨⟨left, tally⟩, hpage, hany⟩ := Fault.exists_of_map_eq_ok hstripped
  obtain ⟨document, hparse, henforce⟩ := Fault.exists_of_bind_eq_ok hpage
  obtain ⟨element, hmem, hany⟩ := List.any_eq_true.mp hany
  obtain ⟨entry, hentry, hnot⟩ := List.any_eq_true.mp hany
  exact ⟨document, left, tally, hparse, henforce, element, hmem, entry, hentry,
    by simpa using hnot⟩

end Policy

end Winnow
