import Winnow.Proofs.Assoc
import Winnow.Proofs.Css.Kept
import Winnow.Proofs.Text.Split

/-!
# Opening brackets in filtered sheets

The filter leaves out selectors and values with opening brackets, so a sheet that it writes holds
one only if the name of an allowed property does.
-/

namespace Winnow.Css

/-- Is there no opening bracket in the properties that are allowed? -/
def Allowance.LacksBrackets (allowance : Allowance) : Prop :=
  ∀ entry ∈ allowance, ∀ property ∈ entry.2, '<' ∉ property.toList

instance (allowance : Allowance) : Decidable allowance.LacksBrackets :=
  inferInstanceAs (Decidable (∀ entry ∈ allowance, ∀ property ∈ entry.2, '<' ∉ property.toList))

theorem Allowance.LacksBrackets.of_find {allowance : Allowance}
    (hlacks : allowance.LacksBrackets) (name : String) :
    ∀ property ∈ (allowance.find? name).getD [], '<' ∉ property.toList := by
  intro property hmem
  obtain ⟨entry, hentry, hmem⟩ := Assoc.exists_of_mem_getD hmem
  exact hlacks entry hentry property hmem

theorem not_mem_importantMark (important : Bool) : '<' ∉ importantMark important := by
  cases important with
  | false => exact List.not_mem_nil
  | true => decide

/-- A declaration in a sheet is kept without a bracket in its value. -/
theorem not_mem_write {allowed : List String}
    (hallowed : ∀ property ∈ allowed, '<' ∉ property.toList) {nodes : List Node} :
    ∀ setting ∈ settings .sheet allowed nodes, '<' ∉ setting.write := by
  intro setting hmem
  obtain ⟨node, -, hsetting⟩ := List.mem_filterMap.mp hmem
  obtain ⟨name, value, important, -, hname, -, -, hvalue, rfl⟩ :=
    Entry.exists_of_settingOf? hsetting
  have hproperty := hallowed _ hname
  rw [String.toList_ofList] at hproperty
  simp only [Setting.write, List.mem_append, List.mem_cons, not_or]
  exact ⟨hproperty, by decide, hvalue rfl, not_mem_importantMark _⟩

theorem not_mem_ruleFor {allowance : Allowance} (hlacks : allowance.LacksBrackets)
    (items : List Node) (selector : List Char) : '<' ∉ ruleFor allowance items selector := by
  unfold ruleFor
  dsimp only
  split
  next => exact List.not_mem_nil
  next hselector =>
    split
    next => exact List.not_mem_nil
    next =>
      simp only [Bool.or_eq_true, List.contains_eq_mem, decide_eq_true_eq, not_or] at hselector
      have hsettings : '<' ∉ writeSettings
          (settings .sheet ((allowance.find? (String.ofList selector)).getD []) items) := by
        intro hmem
        rcases Text.mem_of_mem_joinWith hmem with hsep | ⟨segment, hsegment, hmem⟩
        · exact absurd hsep (by decide)
        · obtain ⟨setting, hsetting, rfl⟩ := List.mem_map.mp hsegment
          exact not_mem_write (hlacks.of_find _) setting hsetting hmem
      simp only [List.mem_append, List.mem_cons, List.not_mem_nil, or_false, not_or]
      exact ⟨⟨hselector.2, by decide, hsettings⟩, by decide⟩

theorem not_mem_filterRules {allowance : Allowance} (hlacks : allowance.LacksBrackets)
    {nodes : List Node} {kept : List Char} (hkept : filterRules allowance nodes = some kept) :
    '<' ∉ kept := by
  induction nodes generalizing kept with
  | nil =>
      cases hkept
      exact List.not_mem_nil
  | cons node rest ih =>
      cases node with
      | rule subject content =>
          rw [filterRules] at hkept
          dsimp only at hkept
          split at hkept
          next => cases hkept
          next =>
            obtain ⟨back, hback, rfl⟩ := Option.map_eq_some_iff.mp hkept
            rw [List.mem_append, not_or]
            refine ⟨fun hmem => ?_, ih hback⟩
            obtain ⟨selector, -, hmem⟩ := List.mem_flatMap.mp hmem
            exact not_mem_ruleFor hlacks _ selector hmem
      | _ => exact ih hkept

/-- A filtered sheet holds no opening bracket unless an allowed property does. -/
theorem not_mem_filterSheet {allowance : Allowance} (hlacks : allowance.LacksBrackets)
    {css out : List Char} (hok : filterSheet allowance css = .ok out) : '<' ∉ out := by
  obtain ⟨nodes, -, hresult⟩ := Fault.exists_of_bind_eq_ok hok
  split at hresult
  next =>
    cases hresult
    exact List.not_mem_nil
  next =>
    cases hresult
    cases hkept : filterRules allowance nodes with
    | none => exact List.not_mem_nil
    | some kept => exact not_mem_filterRules hlacks hkept

end Winnow.Css
