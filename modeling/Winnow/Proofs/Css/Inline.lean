import Mathlib.Data.List.Forall2
import Winnow.Proofs.Assoc
import Winnow.Proofs.Css.Kept

/-!
# Filtered inline styles are read back

The declarations that the filter keeps of a plain style attribute are what its output is read as,
none of them important and none with an address, and filtering the output again changes nothing.
An attribute with an escape, a comment or a blank that belongs to a name need not be read back.
-/

namespace Winnow.Css

/-- Every property that is allowed has a plain name. -/
def Allowance.IsProper (allowance : Allowance) : Prop :=
  ∀ entry ∈ allowance, ∀ property ∈ entry.2, isProperty property.toList = true

theorem Allowance.IsProper.of_find {allowance : Allowance} (hproper : allowance.IsProper)
    (name : String) : ∀ property ∈ (allowance.find? name).getD [],
      isProperty property.toList = true := by
  intro property hmem
  obtain ⟨entry, hentry, hmem⟩ := Assoc.exists_of_mem_getD hmem
  exact hproper entry hentry property hmem

theorem Allowance.IsProper.inlineProperties {allowance : Allowance} (hproper : allowance.IsProper)
    (tag : String) : ∀ property ∈ inlineProperties allowance tag,
      isProperty property.toList = true := by
  intro property hmem
  rcases List.mem_append.mp (mem_distinct.mp hmem) with hmem | hmem
  · exact hproper.of_find wildcard property hmem
  · exact hproper.of_find tag property hmem

/-- The settings that the filter keeps of the declarations of a style attribute. -/
def keptInline (allowance : Allowance) (tag : String) (nodes : List Node) : List Setting :=
  if Node.containsFlaw nodes then [] else settings .inline (inlineProperties allowance tag) nodes

theorem settings_nil_allowed (place : Place) (nodes : List Node) :
    settings place [] nodes = [] := by
  refine List.filterMap_eq_nil_iff.mpr fun node _ => ?_
  cases node with
  | declaration name value important => simp [settingOf?]
  | _ => rfl

/-- The filter writes the settings that it keeps. -/
theorem filterInline_of_parse {css : List Char} {nodes : List Node}
    (hread : parseDeclarations false css = .ok nodes) (allowance : Allowance) (tag : String) :
    filterInline allowance tag css = .ok (writeSettings (keptInline allowance tag nodes)) := by
  rw [filterInline, hread, keptInline]
  cases hallowed : (inlineProperties allowance tag).isEmpty with
  | true =>
      rw [List.isEmpty_iff.mp hallowed, settings_nil_allowed, ite_self]
      rfl
  | false =>
      rw [if_neg Bool.false_ne_true, Fault.ok_bind]
      cases Node.containsFlaw nodes with
      | true => rfl
      | false => rfl

theorem exists_kept_inline {css : List Char} {nodes : List Node} (hplain : IsPlain css)
    (hread : parseDeclarations false css = .ok nodes) {allowance : Allowance}
    (hproper : allowance.IsProper) (tag : String) : ∃ entries : List Entry,
      (∀ entry ∈ entries, entry.Kept .inline (inlineProperties allowance tag)) ∧
        entries.map Entry.setting = keptInline allowance tag nodes := by
  cases hflaw : Node.containsFlaw nodes with
  | true => exact ⟨[], by simp, by simp [keptInline, hflaw]⟩
  | false =>
      obtain ⟨whole, hwhole, hnodes⟩ := Fault.exists_of_bind_eq_ok hread
      cases hnodes
      rw [keptInline, hflaw]
      exact Entry.exists_kept_all hplain hwhole (containsFlaw_of_declarations hflaw) List.infix_rfl
        (hproper.inlineProperties tag)

/-- A style attribute without backslashes and comments, in which nothing but white space of CSS is
blank, is filtered under plain names of properties. Then the output is read as the declarations
that the filter keeps, with the same properties in the same order; none of them is important or
has an address at any depth, and filtering the output again gives the output. -/
theorem filterInline_read_back {css : List Char} {nodes : List Node} (hplain : IsPlain css)
    (hread : parseDeclarations false css = .ok nodes) {allowance : Allowance}
    (hproper : allowance.IsProper) (tag : String) :
    ∃ out again, filterInline allowance tag css = .ok out ∧
      parseDeclarations false out = .ok again ∧
      List.Forall₂ (fun node setting => ∃ value, node = .declaration setting.property value false ∧
        Node.containsUrl value = false) again (keptInline allowance tag nodes) ∧
      filterInline allowance tag out = .ok out := by
  obtain ⟨entries, hkept, hsettings⟩ := exists_kept_inline hplain hread hproper tag
  have hout := filterInline_of_parse hread allowance tag
  have hagain := Entry.parseDeclarations_settings hkept
  have hfilter := filterInline_of_parse hagain allowance tag
  have hsame : keptInline allowance tag ((entries.map Entry.reread).map Entry.node) =
      entries.map Entry.setting := by
    rw [keptInline, Entry.flawless_reread hkept]
    exact Entry.settings_reread hkept
  rw [hsame] at hfilter
  rw [← hsettings] at hout ⊢
  refine ⟨_, _, hout, hagain, ?_, hfilter⟩
  rw [List.map_map, List.forall₂_map_left_iff, List.forall₂_map_right_iff]
  refine List.forall₂_same.mpr fun entry hmem => ⟨entry.reread.value, ?_, ?_⟩
  · have himportant : false = entry.important := (hkept entry hmem).importance
    rw [himportant]
    rfl
  · exact containsUrl_of_plain (Entry.plain_recasedAll (hkept entry hmem).natural.plain)

/-- The output of the filter for a color. -/
theorem filterInline_read_back_color : ∃ out again,
    filterInline [("p", ["color"])] "p" "color: red".toList = .ok out ∧
      parseDeclarations false out = .ok again ∧
      List.Forall₂ (fun node setting => ∃ value, node = .declaration setting.property value false ∧
        Node.containsUrl value = false) again (keptInline [("p", ["color"])] "p"
          [.declaration "color".toList [.token (.whitespace [' ']), .token (.ident "red".toList)]
            false]) ∧
      filterInline [("p", ["color"])] "p" out = .ok out :=
  filterInline_read_back
    ⟨by decide, fun hcomment => absurd (hcomment.subset (by decide : '*' ∈ ['/', '*']))
      (by decide : '*' ∉ "color: red".toList), List.forall_iff_forall_mem.mp (by decide)⟩ rfl
    (List.forall_mem_singleton.mpr (List.forall_mem_singleton.mpr (by decide))) "p"

/-! ## Blanks that belong to a name -/

theorem keptInline_singleton {allowance : Allowance} {tag : String} {node : Node}
    (hflaw : Node.holdsAt Node.isFlaw node = false) {setting : Option Setting}
    (hsetting : settingOf? .inline (inlineProperties allowance tag) node = setting) :
    keptInline allowance tag [node] = setting.toList := by
  have hnodes : Node.containsFlaw [node] = false := by
    rw [Node.containsFlaw_eq, Node.holdsIn, hflaw]
    rfl
  rw [keptInline, hnodes, settings, List.filterMap_cons, hsetting]
  cases setting <;> rfl

/-- A no-break space belongs to a name, but it is trimmed off a value: the function that is left
is an address, and a second filter drops it. -/
theorem filterInline_not_idempotent :
    filterInline [("p", ["color"])] "p" "color:\u00a0url(x)".toList = .ok "color:url(x)".toList ∧
      filterInline [("p", ["color"])] "p" "color:url(x)".toList = .ok [] := by
  constructor
  · let node : Node :=
      .declaration "color".toList [.function "\u00a0url".toList [.token (.ident ['x'])]] false
    have hread : parseDeclarations false "color:\u00a0url(x)".toList = .ok [node] := rfl
    have hsetting : settingOf? .inline (inlineProperties [("p", ["color"])] "p") node =
        some { property := "color".toList, value := "url(x)".toList } := by
      simp only [node, settingOf?, Node.containsUrl_eq]
      rfl
    rw [filterInline_of_parse hread, keptInline_singleton rfl hsetting]
    rfl
  · let node : Node := .declaration "color".toList [.token (.url ['x'] true)] false
    have hread : parseDeclarations false "color:url(x)".toList = .ok [node] := rfl
    have hsetting : settingOf? .inline (inlineProperties [("p", ["color"])] "p") node = none := by
      simp only [node, settingOf?, Node.containsUrl_eq]
      rfl
    rw [filterInline_of_parse hread, keptInline_singleton rfl hsetting]
    rfl

end Winnow.Css
