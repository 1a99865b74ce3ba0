import Mathlib.Data.Finset.Lattice.Lemmas
import Winnow.Proofs.Enforcement.Answers
import Winnow.Proofs.Policy

/-!
# Policies that say the same

The order in which rules were taken shows in the tables of a policy, but not in what they hold:
each budget, and the set of names under each name. Two policies whose tables hold the same, in
whatever order, treat every element alike.
-/

namespace Winnow

/-! ## Lists with the same members -/

section Members

variable {α : Type} [DecidableEq α] {members others : List α}

theorem mem_congr (hsame : members.toFinset = others.toFinset) (x : α) :
    x ∈ members ↔ x ∈ others :=
  List.toFinset.ext_iff.mp hsame x

theorem isEmpty_congr (hsame : members.toFinset = others.toFinset) :
    members.isEmpty = others.isEmpty := by
  rw [Bool.eq_iff_iff, List.isEmpty_iff, List.isEmpty_iff, ← List.toFinset_eq_empty_iff, hsame,
    List.toFinset_eq_empty_iff]

theorem contains_congr {names others : List String} (hsame : names.toFinset = others.toFinset)
    (name : String) : names.contains name = others.contains name := by
  rw [Bool.eq_iff_iff, List.contains_iff_mem, List.contains_iff_mem, mem_congr hsame]

theorem toFinset_append_congr {more rest : List α} (hsame : members.toFinset = others.toFinset)
    (hmore : more.toFinset = rest.toFinset) :
    (members ++ more).toFinset = (others ++ rest).toFinset := by
  rw [List.toFinset_append, List.toFinset_append, hsame, hmore]

theorem toFinset_distinct (members : List α) : (distinct members).toFinset = members.toFinset :=
  List.toFinset.ext fun _ => mem_distinct

theorem toFinset_addMember (member : α) (members : List α) :
    (addMember member members).toFinset = (members ++ [member]).toFinset := by
  ext other
  simp [mem_addMember, or_comm]

end Members

/-! ## Tables with the same sets -/

namespace Assoc

/-- Are the same sets under the same names? -/
def SameSets (table other : Assoc (List String)) : Prop :=
  ∀ name, (table.find? name).map List.toFinset = (other.find? name).map List.toFinset

theorem eq_nil_of_find? {β : Type} {table : Assoc β} (hnone : ∀ name, table.find? name = none) :
    table = [] := by
  cases table with
  | nil => rfl
  | cons entry rest =>
      have hfind := hnone entry.1
      rw [find?_cons, if_pos rfl] at hfind
      cases hfind

/-- Where every name occurs once, two tables that give the same under each name hold the same. -/
theorem perm_of_find? {β : Type} [DecidableEq β] {table other : Assoc β}
    (htable : table.names.Nodup) (hother : other.names.Nodup)
    (hsame : ∀ name, table.find? name = other.find? name) : List.Perm table other := by
  have hfound : ∀ {table : Assoc β}, table.names.Nodup → ∀ entry : String × β,
      entry ∈ table ↔ table.find? entry.1 = some entry.2 :=
    fun hnodup entry => ⟨find?_of_mem hnodup, mem_of_find?⟩
  refine (List.perm_ext_iff_of_nodup (.of_map _ htable) (.of_map _ hother)).mpr fun entry => ?_
  rw [hfound htable, hfound hother, hsame]

namespace SameSets

variable {table other : Assoc (List String)} (hsame : table.SameSets other)
include hsame

theorem symm : other.SameSets table := fun name => (hsame name).symm

theorem listed (name : String) :
    ((table.find? name).getD []).toFinset = ((other.find? name).getD []).toFinset := by
  have hname := hsame name
  cases htable : table.find? name with
  | none =>
      rw [htable, Option.map_none, eq_comm, Option.map_eq_none_iff] at hname
      rw [hname]
  | some members =>
      rw [htable, Option.map_some, eq_comm, Option.map_eq_some_iff] at hname
      obtain ⟨others, hother, heq⟩ := hname
      rw [hother, Option.getD_some, Option.getD_some, heq]

theorem isEmpty : List.isEmpty table = List.isEmpty other := by
  have hempty : ∀ {table other : Assoc (List String)}, table.SameSets other →
      List.isEmpty table = true → List.isEmpty other = true := by
    intro table other hsame hnone
    rw [List.isEmpty_iff] at hnone ⊢
    refine eq_nil_of_find? fun name => ?_
    have hname := hsame name
    rw [hnone, find?_nil, Option.map_none, eq_comm, Option.map_eq_none_iff] at hname
    exact hname
  rw [Bool.eq_iff_iff]
  exact ⟨hempty hsame, hempty hsame.symm⟩

/-- All names that the tables hold are the same. -/
theorem toFinset_flatMap (htable : table.names.Nodup) (hother : other.names.Nodup) :
    (List.flatMap (·.2) table).toFinset = (List.flatMap (·.2) other).toFinset := by
  have hsubset : ∀ {table other : Assoc (List String)}, table.SameSets other →
      table.names.Nodup → ∀ member ∈ List.flatMap (·.2) table,
        member ∈ List.flatMap (·.2) other := by
    intro table other hsame htable member hmem
    obtain ⟨entry, hentry, hin⟩ := List.mem_flatMap.mp hmem
    have hname := hsame entry.1
    rw [find?_of_mem htable hentry, Option.map_some, eq_comm, Option.map_eq_some_iff] at hname
    obtain ⟨others, hfind, heq⟩ := hname
    exact List.mem_flatMap.mpr ⟨_, mem_of_find? hfind, (mem_congr heq member).mpr hin⟩
  exact List.toFinset.ext fun member =>
    ⟨hsubset hsame htable member, hsubset hsame.symm hother member⟩

end SameSets

end Assoc

/-! ## Styles -/

namespace Css

variable {allowance other : Allowance}

theorem settings_congr {allowed others : List String}
    (hsame : allowed.toFinset = others.toFinset) (place : Place) (nodes : List Node) :
    settings place allowed nodes = settings place others nodes := by
  have hsetting : settingOf? place allowed = settingOf? place others := by
    funext node
    unfold settingOf?
    simp only [contains_congr hsame]
  rw [settings, settings, hsetting]

theorem ruleFor_congr (hsame : allowance.SameSets other) (items : List Node)
    (selector : List Char) :
    ruleFor allowance items selector = ruleFor other items selector := by
  have hlisted := hsame.listed (String.ofList selector)
  unfold ruleFor
  simp only [isEmpty_congr hlisted, settings_congr hlisted]

theorem filterRules_congr (hsame : allowance.SameSets other) (nodes : List Node) :
    filterRules allowance nodes = filterRules other nodes := by
  induction nodes with
  | nil => rfl
  | cons node rest ih =>
      cases node with
      | rule subject content =>
          rw [filterRules, filterRules, ih, funext (ruleFor_congr hsame (declarations content))]
      | _ => exact ih

theorem filterSheet_congr (hsame : allowance.SameSets other) (css : List Char) :
    filterSheet allowance css = filterSheet other css := by
  unfold filterSheet
  simp only [filterRules_congr hsame]

theorem filterInline_congr (hsame : allowance.SameSets other) (tag : String)
    (css : List Char) : filterInline allowance tag css = filterInline other tag css := by
  have hproperties : (inlineProperties allowance tag).toFinset =
      (inlineProperties other tag).toFinset := by
    rw [inlineProperties, inlineProperties, toFinset_distinct, toFinset_distinct]
    exact toFinset_append_congr (hsame.listed wildcard) (hsame.listed tag)
  -- Of the properties it is asked only whether there are any and whether one is among them.
  unfold filterInline
  simp only [isEmpty_congr hproperties, settings_congr hproperties]

end Css

namespace Policy

/-- Are the switches, the budgets and the sets of names the same? -/
structure Alike (policy other : Policy) : Prop where
  config : policy.config = other.config
  tagBudget : ∀ tag, policy.tagBudget.find? tag = other.tagBudget.find? tag
  attrAllow : policy.attrAllow.SameSets other.attrAllow
  styleAllow : policy.styleAllow.SameSets other.styleAllow

/-- In the tables of a policy every name occurs once. -/
structure Keyed (policy : Policy) : Prop where
  tagBudget : policy.tagBudget.names.Nodup
  attrAllow : policy.attrAllow.names.Nodup
  styleAllow : policy.styleAllow.names.Nodup

theorem Keyed.addRule {policy : Policy} (hkeyed : policy.Keyed) (rule : Rule) :
    (policy.addRule rule).Keyed := by
  match rule with
  | .tag name => exact { hkeyed with tagBudget := Assoc.nodup_names_put hkeyed.tagBudget _ _ }
  | .attribute tag name =>
      exact { hkeyed with attrAllow := Assoc.nodup_names_put hkeyed.attrAllow _ _ }
  | .style selector property =>
      exact { hkeyed with styleAllow := Assoc.nodup_names_put hkeyed.styleAllow _ _ }
  | .ignored reason => exact hkeyed

theorem keyed_ofRules (rules : List Rule) (config : Config) : (ofRules rules config).Keyed := by
  have hfold : ∀ policy : Policy, policy.Keyed → (rules.foldl Policy.addRule policy).Keyed := by
    induction rules with
    | nil => exact fun _ hkeyed => hkeyed
    | cons rule rest ih => exact fun _ hkeyed => ih _ (hkeyed.addRule rule)
  exact hfold _ ⟨List.nodup_nil, List.nodup_nil, List.nodup_nil⟩

namespace Alike

variable {policy other : Policy} (halike : policy.Alike other)
include halike

theorem budgetFor (tag : String) : policy.budgetFor tag = other.budgetFor tag := by
  rw [Policy.budgetFor, Policy.budgetFor, halike.tagBudget]

theorem effectiveBudget (tag : String) :
    policy.effectiveBudget tag = other.effectiveBudget tag := by
  rw [Policy.effectiveBudget, Policy.effectiveBudget, halike.budgetFor]

theorem perm_tagBudget (hpolicy : policy.Keyed) (hother : other.Keyed) :
    List.Perm policy.tagBudget other.tagBudget :=
  Assoc.perm_of_find? hpolicy.tagBudget hother.tagBudget halike.tagBudget

theorem totalBudget (hpolicy : policy.Keyed) (hother : other.Keyed) :
    policy.totalBudget = other.totalBudget := by
  -- The total is summed in the order of the table, but a sum has none.
  refine (halike.perm_tagBudget hpolicy hother).foldl_eq' ?_ 0
  intro entry _ next _ total
  split <;> split <;> omega

theorem forbids (tag : String) : policy.forbids tag = other.forbids tag := by
  rw [Policy.forbids, Policy.forbids, allowsStyleElement, allowsStyleElement, halike.config,
    halike.budgetFor, halike.styleAllow.isEmpty]

theorem toFinset_allowedAttributes (tag : String) :
    (policy.allowedAttributes tag).toFinset = (other.allowedAttributes tag).toFinset := by
  have hlisted := halike.attrAllow.listed tag
  unfold Policy.allowedAttributes
  dsimp only
  rw [halike.config]
  split
  next =>
    rw [toFinset_distinct, toFinset_distinct]
    exact toFinset_append_congr (toFinset_append_congr hlisted rfl) rfl
  next => rw [toFinset_distinct, toFinset_distinct, hlisted]

theorem judge (tag name : String) (value : Option String) :
    policy.judge tag name value = other.judge tag name value := by
  unfold Policy.judge Policy.judgeValue
  simp only [halike.config, contains_congr (halike.toFinset_allowedAttributes tag),
    Css.filterInline_congr halike.styleAllow]

theorem filterStyleText (text : String) :
    policy.filterStyleText text = other.filterStyleText text := by
  rw [Policy.filterStyleText, Policy.filterStyleText, Css.filterSheet_congr halike.styleAllow]

/-- A pass gets the same answers from both policies. -/
theorem answers (hpolicy : policy.Keyed) (hother : other.Keyed) : policy.Answers other where
  forbids := halike.forbids
  effectiveBudget := halike.effectiveBudget
  totalBudget := halike.totalBudget hpolicy hother
  judge := halike.judge
  filterStyleText := halike.filterStyleText

end Alike

end Policy

end Winnow
