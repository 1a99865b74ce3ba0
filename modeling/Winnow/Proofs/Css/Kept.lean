import Winnow.Proofs.Css.Settings

/-!
# Declarations that a filter keeps

Every setting that a filter writes comes from a declaration that can be read again, and after it
has been read again the filter writes the same setting.
-/

namespace Winnow.Css

/-- The importance that is kept in a place. -/
def Place.importance (place : Place) (important : Bool) : Bool :=
  match place with
  | sheet => important
  | inline => false

namespace Entry

/-- A declaration that a filter keeps in a place. -/
structure Kept (place : Place) (allowed : List String) (entry : Entry) : Prop
    extends entry.Proper where
  mem : String.ofList entry.name ∈ allowed
  filled : valueText entry.value ≠ []
  importance : place.importance entry.important = entry.important
  bracket : place = .sheet → '<' ∉ valueText entry.value

/-! ## Where settings come from -/

theorem exists_of_settingOf? {place : Place} {allowed : List String} {node : Node}
    {setting : Setting} (hsetting : settingOf? place allowed node = some setting) :
    ∃ name value important, node = .declaration name value important ∧
      String.ofList (Text.strip (Node.lowerName name)) ∈ allowed ∧
      Node.containsUrl value = false ∧ valueText value ≠ [] ∧
      (place = .sheet → '<' ∉ valueText value) ∧
      setting = { property := Text.strip (Node.lowerName name)
                  value := valueText value ++ importantMark (place.importance important) } := by
  cases node with
  | declaration name value important =>
      simp only [settingOf?] at hsetting
      by_cases hdropped : (!allowed.contains (String.ofList (Text.strip (Node.lowerName name))) ||
          Node.containsUrl value || (valueText value).isEmpty) = true
      · rw [if_pos hdropped] at hsetting
        cases hsetting
      · rw [if_neg hdropped] at hsetting
        simp only [Bool.or_eq_true, Bool.not_eq_true', List.isEmpty_iff, not_or,
          Bool.not_eq_true, Bool.not_eq_false, List.contains_iff_mem] at hdropped
        refine ⟨name, value, important, rfl, hdropped.1.1, hdropped.1.2, hdropped.2, ?_⟩
        cases place with
        | inline =>
            obtain rfl := Option.some.inj hsetting
            exact ⟨by simp, by simp [Place.importance, importantMark]⟩
        | sheet =>
            dsimp only at hsetting
            by_cases hbracket : (valueText value).contains '<' = true
            · rw [if_pos hbracket] at hsetting
              cases hsetting
            · rw [if_neg hbracket] at hsetting
              obtain rfl := Option.some.inj hsetting
              exact ⟨fun _ => by simpa using hbracket, rfl⟩
  | _ => cases hsetting

theorem trimmed_trimmed (nodes : List Node) : trimmed (trimmed nodes) = trimmed nodes := by
  have hhead : (trimmed nodes).dropWhile Node.isWhitespace = trimmed nodes := by
    have hnot := head_trimmed nodes
    cases heq : trimmed nodes with
    | nil => rfl
    | cons node rest =>
        rw [heq] at hnot
        rw [List.dropWhile_cons_of_neg]
        simpa using hnot node rfl
  rw [trimmed, hhead]
  exact List.rdropWhile_idempotent _ _

theorem valueText_trimmed {nodes : List Node} (hplain : ∀ x ∈ Node.lexemesAll nodes, x.Plain) :
    valueText (trimmed nodes) = valueText nodes :=
  strip_write_trimmed hplain

theorem containsUrl_trimmed {value : List Node} (haddress : Node.containsUrl value = false) :
    Node.containsUrl (trimmed value) = false := by
  rw [Node.containsUrl_eq, Node.holdsIn_eq_false_iff] at haddress ⊢
  exact fun node hmem => haddress node ((trimmed_isInfix value).subset hmem)

section Origin

variable {css : List Char} (hplain : IsPlain css) {nodes part : List Node}
  (hread : components false css = .ok nodes) (hflaw : Node.containsFlaw nodes = false)
  (hpart : Node.lexemesAll part <:+: Node.lexemesAll nodes) {place : Place} {allowed : List String}
  (hallowed : ∀ property ∈ allowed, isProperty property.toList = true)
include hplain hread hflaw hpart hallowed

/-- A setting comes from a declaration that is kept. -/
theorem exists_kept {setting : Setting} (hmem : setting ∈ settings place allowed (declarations part)) :
    ∃ entry : Entry, entry.Kept place allowed ∧ entry.setting = setting := by
  obtain ⟨node, hnode, hsetting⟩ := List.mem_filterMap.mp hmem
  obtain ⟨name, value, important, rfl, hname, haddress, hfilled, hbracket, rfl⟩ :=
    exists_of_settingOf? hsetting
  obtain ⟨hwithin, hvalue⟩ := mem_declarations hnode
  have hpart := (Node.lexemesAll_infix hwithin).trans hpart
  have hnatural := natural_of_components hplain hread hflaw hpart haddress
  have htext := valueText_trimmed hnatural.plain
  refine ⟨⟨Text.strip (Node.lowerName name), trimmed value, place.importance important, ?_⟩,
    ⟨⟨?_, ?_, trimmed_trimmed value⟩, hname, ?_, ?_, ?_⟩, ?_⟩
  · cases place with
    | sheet => exact hvalue.trimmed
    | inline => exact hvalue.trimmed.unimportant
  · have hproperty := hallowed _ hname
    rwa [String.toList_ofList] at hproperty
  · exact natural_of_components hplain hread hflaw
      ((Node.lexemesAll_infix (trimmed_isInfix value)).trans hpart)
      (containsUrl_trimmed haddress)
  · rwa [htext]
  · cases place <;> rfl
  · rwa [htext]
  · rw [Entry.setting, htext]

/-- The settings of a list come from declarations that are kept. -/
theorem exists_kept_all : ∃ entries : List Entry,
    (∀ entry ∈ entries, entry.Kept place allowed) ∧
      entries.map setting = settings place allowed (declarations part) := by
  have hall : ∀ s ∈ settings place allowed (declarations part),
      ∃ entry : Entry, entry.Kept place allowed ∧ entry.setting = s :=
    fun s hmem => exists_kept hplain hread hflaw hpart hallowed hmem
  revert hall
  induction settings place allowed (declarations part) with
  | nil => exact fun _ => ⟨[], by simp, rfl⟩
  | cons s others ih =>
      intro hall
      obtain ⟨⟨entry, hentry, rfl⟩, hothers⟩ := List.forall_mem_cons.mp hall
      obtain ⟨entries, hentries, rfl⟩ := ih hothers
      exact ⟨entry :: entries, List.forall_mem_cons.mpr ⟨hentry, hentries⟩, rfl⟩

end Origin

/-! ## Reading them again -/

/-- The declaration after it has been written and read again. -/
def reread (entry : Entry) : Entry where
  name := entry.name
  value := Node.recasedAll entry.value
  important := entry.important
  isValue := entry.isValue.recased

theorem recasedAll_nodes (entry : Entry) : Node.recasedAll entry.nodes = entry.reread.nodes := by
  obtain ⟨name, value, important, hvalue⟩ := entry
  rw [nodes, Node.recasedAll, Node.recasedAll, Node.recasedAll_append]
  cases important with
  | true => rfl
  | false => rfl

theorem recasedAll_nodesAll (entries : List Entry) :
    Node.recasedAll (nodesAll entries) = nodesAll (entries.map reread) := by
  induction entries with
  | nil => rfl
  | cons entry others ih =>
      cases others with
      | nil => exact recasedAll_nodes entry
      | cons next others =>
          rw [nodesAll, Node.recasedAll_append, recasedAll_nodes, Node.recasedAll, ih]
          · rfl
          · simp

section Value

variable {nodes : List Node} (hplain : ∀ x ∈ Node.lexemesAll nodes, x.Plain)
include hplain

theorem plain_recasedAll : ∀ x ∈ Node.lexemesAll (Node.recasedAll nodes), x.Plain := by
  rw [Node.lexemesAll_recasedAll]
  exact List.forall_mem_map.mpr fun x hmem => (hplain x hmem).recased

/-- The value of a declaration has the same text after it has been read again. -/
theorem valueText_recasedAll : valueText (Node.recasedAll nodes) = valueText nodes := by
  rw [valueText, valueText, write_eq_spell hplain, write_eq_spell (plain_recasedAll hplain),
    Node.lexemesAll_recasedAll, Lexeme.spell_map_recased]

end Value

variable {place : Place} {allowed : List String}

/-- A declaration that is kept leaves the same setting when it is read again. -/
theorem Kept.setting_reread {entry : Entry} (hkept : entry.Kept place allowed) :
    settingOf? place allowed entry.reread.node = some entry.setting := by
  have hplain := hkept.natural.plain
  have hname : Text.strip (Node.lowerName entry.name) = entry.name := by
    rw [lowerName_of_isProperty hkept.name, strip_of_isProperty hkept.name]
  have htext : valueText entry.reread.value = valueText entry.value := valueText_recasedAll hplain
  have haddress : Node.containsUrl entry.reread.value = false :=
    containsUrl_of_plain (plain_recasedAll hplain)
  have hfilled : (valueText entry.value).isEmpty = false :=
    List.isEmpty_eq_false_iff.mpr hkept.filled
  have hmem := List.contains_iff_mem.mpr hkept.mem
  have himportance := hkept.importance
  have hnode : entry.reread.node =
      .declaration entry.name entry.reread.value entry.important := rfl
  simp only [hnode, settingOf?, hname, htext, haddress, hfilled, hmem]
  cases place with
  | inline =>
      have hmark : importantMark entry.important = [] := by
        rw [← himportance]
        rfl
      simp [setting, hmark]
  | sheet =>
      simp [setting, hkept.bracket rfl]

section Written

variable {entries : List Entry} (hkept : ∀ entry ∈ entries, entry.Kept place allowed)
include hkept

/-- What is kept of the declarations that are read again is what was written. -/
theorem settings_reread :
    settings place allowed ((entries.map reread).map node) = entries.map setting := by
  induction entries with
  | nil => rfl
  | cons entry others ih =>
      obtain ⟨hentry, hothers⟩ := List.forall_mem_cons.mp hkept
      rw [List.map_cons, List.map_cons, settings, List.filterMap_cons, hentry.setting_reread,
        ← settings, ih hothers]
      rfl

/-- The text of settings is read as the declarations that they were written for. -/
theorem components_settings : components false (writeSettings (entries.map setting)) =
    .ok (nodesAll (entries.map reread)) := by
  have hproper : ∀ entry ∈ entries, entry.Proper := fun entry hmem => (hkept entry hmem).toProper
  have hnatural := natural_nodesAll hproper continues_nil
  have hspells := spells_settings hproper follows_nil
  rw [List.append_nil] at hnatural hspells
  rw [List.append_nil] at hspells
  rw [components_of_spells hnatural hspells, recasedAll_nodesAll]

theorem parseDeclarations_settings :
    parseDeclarations false (writeSettings (entries.map setting)) =
      .ok ((entries.map reread).map node) := by
  rw [parseDeclarations, components_settings hkept, ← declarations_nodesAll]
  rfl

/-- No place of the declarations that are read again is unreadable. -/
theorem flawless_reread : Node.containsFlaw ((entries.map reread).map node) = false := by
  rw [Node.containsFlaw_eq, Node.holdsIn_eq_false_iff, List.map_map]
  refine List.forall_mem_map.mpr fun entry hmem => ?_
  have hvalue : Node.holdsIn Node.isFlaw entry.reread.value = false :=
    holdsIn_isFlaw_of_plain (plain_recasedAll (hkept entry hmem).natural.plain)
  simp [node, Node.holdsAt, Node.isFlaw, hvalue]

end Written

end Entry

end Winnow.Css
