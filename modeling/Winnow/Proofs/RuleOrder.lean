import Winnow.Proofs.Passes
import Winnow.Proofs.Screen.Alike

/-!
# The order of rules

A rule list says how many elements of each name there may be, and which attributes and which
style properties are allowed. It says so by its tag rules with their repetitions and by the sets
of its attribute and style rules; their order, repetitions of the latter and rules that are
ignored make no difference to anything that is sanitized.
-/

namespace Winnow

namespace Rule

/-- The names of the tag rules of a list. -/
def tagNames (rules : List Rule) : List String :=
  rules.filterMap fun
    | .tag name => some name
    | _ => none

/-- The element and attribute names of the attribute rules of a list. -/
def attributePairs (rules : List Rule) : List (String × String) :=
  rules.filterMap fun
    | .attribute element name => some (element, name)
    | _ => none

/-- The selectors and properties of the style rules of a list. -/
def stylePairs (rules : List Rule) : List (String × String) :=
  rules.filterMap fun
    | .style selector property => some (selector, property)
    | _ => none

/-- Do lists have the same tag rules equally often, and the same attribute and style rules? -/
structure Agree (rules others : List Rule) : Prop where
  tags : (tagNames rules).Perm (tagNames others)
  attributes : (attributePairs rules).toFinset = (attributePairs others).toFinset
  styles : (stylePairs rules).toFinset = (stylePairs others).toFinset

theorem count_tagNames (rules : List Rule) (tag : String) :
    (tagNames rules).count tag = rules.count (.tag tag) := by
  induction rules with
  | nil => rfl
  | cons rule rest ih =>
      rw [List.count_cons, ← ih]
      unfold tagNames
      match rule with
      | .tag name => simp [List.count_cons]
      | .attribute _ _ | .style _ _ | .ignored _ => simp

end Rule

/-! ## Tables of pairs -/

namespace Assoc

/-- The second parts of the pairs whose first part is a name. -/
def under (pairs : List (String × String)) (name : String) : List String :=
  (pairs.filter (·.1 = name)).map (·.2)

theorem mem_under {pairs : List (String × String)} {name member : String} :
    member ∈ under pairs name ↔ (name, member) ∈ pairs := by
  simp [under]

/-- A table with pairs granted one after the other. -/
def grantAll (table : Assoc (List String)) (pairs : List (String × String)) :
    Assoc (List String) :=
  pairs.foldl (fun table pair => Policy.grant table pair.1 pair.2) table

/-- Under a name there is what was there before with what has been granted, if anything. -/
theorem find?_grantAll (table : Assoc (List String)) (pairs : List (String × String))
    (name : String) :
    ((grantAll table pairs).find? name).map List.toFinset =
      if under pairs name = [] then (table.find? name).map List.toFinset
      else some ((table.find? name).getD [] ++ under pairs name).toFinset := by
  induction pairs generalizing table with
  | nil => rfl
  | cons pair rest ih =>
      obtain ⟨tag, member⟩ := pair
      rw [grantAll, List.foldl_cons, ← grantAll, ih]
      -- Only a pair under this name changes what is found there.
      by_cases heq : tag = name
      · subst heq
        have hunder : under ((tag, member) :: rest) tag = member :: under rest tag := by
          simp [under]
        have hgranted : (Policy.grant table tag member).find? tag =
            some (addMember member ((table.find? tag).getD [])) := by
          rw [Policy.grant, find?_put, if_pos rfl]
        rw [hunder, hgranted, if_neg (List.cons_ne_nil _ _)]
        split
        next hnone => rw [hnone, Option.map_some, toFinset_addMember]
        next => rw [Option.getD_some, List.append_cons, toFinset_append_congr
            (toFinset_addMember member _) rfl]
      · have hunder : under ((tag, member) :: rest) name = under rest name := by
          simp [under, heq]
        rw [hunder, Policy.find?_grant_of_ne (Ne.symm heq)]

/-- What is granted depends on the set of pairs only. -/
theorem sameSets_grantAll {pairs others : List (String × String)}
    (hsame : pairs.toFinset = others.toFinset) :
    SameSets (grantAll [] pairs) (grantAll [] others) := by
  intro name
  have hunder : (under pairs name).toFinset = (under others name).toFinset := by
    ext member
    simp only [List.mem_toFinset, mem_under, mem_congr hsame]
  have hempty : under pairs name = [] ↔ under others name = [] := by
    rw [← List.toFinset_eq_empty_iff, hunder, List.toFinset_eq_empty_iff]
  simp only [find?_grantAll, hempty, find?_nil, Option.getD_none, List.nil_append, hunder]

end Assoc

namespace Policy

/-! ## The tables of a compiled policy -/

theorem attrAllow_foldl_addRule (rules : List Rule) (policy : Policy) :
    (rules.foldl addRule policy).attrAllow =
      policy.attrAllow.grantAll (Rule.attributePairs rules) := by
  induction rules generalizing policy with
  | nil => rfl
  | cons rule rest ih =>
      rw [List.foldl_cons, ih]
      cases rule <;> rfl

theorem styleAllow_foldl_grant (rules : List Rule) (policy : Policy) :
    (rules.foldl addRule policy).styleAllow =
      policy.styleAllow.grantAll (Rule.stylePairs rules) := by
  induction rules generalizing policy with
  | nil => rfl
  | cons rule rest ih =>
      rw [List.foldl_cons, ih]
      cases rule <;> rfl

theorem find?_tagBudget_addRule (policy : Policy) (rule : Rule) (tag : String) :
    (policy.addRule rule).tagBudget.find? tag =
      if rule = .tag tag then some (policy.budgetFor tag + 1) else policy.tagBudget.find? tag := by
  match rule with
  | .tag name =>
      unfold addRule
      rw [Assoc.find?_put]
      by_cases heq : tag = name
      · simp [heq]
      · simp [heq, Ne.symm heq]
  | .attribute _ _ | .style _ _ | .ignored _ => simp [addRule]

theorem find?_tagBudget_foldl (rules : List Rule) (policy : Policy) (tag : String) :
    (rules.foldl addRule policy).tagBudget.find? tag =
      if rules.count (.tag tag) = 0 then policy.tagBudget.find? tag
      else some (policy.budgetFor tag + rules.count (.tag tag)) := by
  induction rules generalizing policy with
  | nil => rfl
  | cons rule rest ih =>
      rw [List.foldl_cons, ih, budgetFor_addRule, find?_tagBudget_addRule, List.count_cons]
      by_cases heq : rule = .tag tag
      · simp only [heq, beq_self_eq_true, if_true]
        split
        next hzero => rw [hzero, if_neg (by omega), Nat.zero_add]
        next => rw [if_neg (by omega), Nat.add_assoc, Nat.add_comm 1]
      · simp only [heq, beq_eq_false_iff_ne.mpr heq, if_false, Bool.false_eq_true, Nat.add_zero]

/-- Rule lists that agree compile to policies that say the same. -/
theorem alike_ofRules {rules others : List Rule} (hagree : Rule.Agree rules others)
    (config : Config) : (ofRules rules config).Alike (ofRules others config) := by
  constructor
  · rw [config_ofRules, config_ofRules]
  · intro tag
    have hcount : rules.count (.tag tag) = others.count (.tag tag) := by
      rw [← Rule.count_tagNames, ← Rule.count_tagNames, hagree.tags.count_eq]
    rw [ofRules, ofRules, find?_tagBudget_foldl, find?_tagBudget_foldl, hcount]
  · rw [ofRules, ofRules, attrAllow_foldl_addRule, attrAllow_foldl_addRule]
    exact Assoc.sameSets_grantAll hagree.attributes
  · rw [ofRules, ofRules, styleAllow_foldl_grant, styleAllow_foldl_grant]
    exact Assoc.sameSets_grantAll hagree.styles

/-! ## Passes -/

namespace Alike

variable {policy other : Policy} (halike : policy.Alike other) (hpolicy : policy.Keyed)
  (hother : other.Keyed)
include halike hpolicy hother

theorem pass (html : String) : policy.pass html = other.pass html := by
  have hscreen := halike.screen hpolicy hother
  unfold Policy.pass
  simp only [(halike.answers hpolicy hother).enforce, halike.config, hscreen.cleanDocument]

/-- Policies that say the same sanitize every text alike. -/
theorem sanitize (html : String) : policy.sanitize html = other.sanitize html := by
  rw [Policy.sanitize, Policy.sanitize, history, history, halike.config,
    passes_congr (halike.pass hpolicy hother)]

end Alike

end Policy

/-- Rule lists that agree compile to policies with the same budgets, which count the tag rules,
and with the same sets of attributes and properties, and they sanitize every text alike. -/
theorem sanitize_of_agree {rules others : List Value}
    (hagree : Rule.Agree (rules.map Rule.ofValue) (others.map Rule.ofValue)) (config : Value) :
    (∀ switches, Config.ofValue config = .ok switches →
      ∃ policy other, Policy.compile (.list rules) config = .ok policy ∧
        Policy.compile (.list others) config = .ok other ∧ policy.Alike other ∧
        ∀ tag, policy.tagBudget.find? tag =
          if (rules.map Rule.ofValue).count (.tag tag) = 0 then none
          else some ((rules.map Rule.ofValue).count (.tag tag))) ∧
    ∀ html, sanitize html (.list rules) config = sanitize html (.list others) config := by
  have hitems : ∀ items : List Value, Rule.items (.list items) = .ok items := by
    intro items
    cases items with
    | nil => rfl
    | cons item rest => rfl
  have hcompile : ∀ items : List Value, Policy.compile (.list items) config =
      Config.ofValue config >>= fun switches =>
        .ok (Policy.ofRules (items.map Rule.ofValue) switches) := by
    intro items
    rw [Policy.compile, hitems, Fault.ok_bind]
    rfl
  refine ⟨fun switches hconfig => ⟨Policy.ofRules (rules.map Rule.ofValue) switches,
    Policy.ofRules (others.map Rule.ofValue) switches, ?_, ?_,
    Policy.alike_ofRules hagree switches, fun tag => ?_⟩, fun html => ?_⟩
  · rw [hcompile, hconfig, Fault.ok_bind]
  · rw [hcompile, hconfig, Fault.ok_bind]
  · rw [Policy.ofRules, Policy.find?_tagBudget_foldl, Policy.budgetFor, Assoc.find?_nil,
      Option.getD_none, Nat.zero_add]
  · unfold sanitize
    rw [hcompile, hcompile]
    cases Config.ofValue config with
    | error fault => rfl
    | ok switches =>
        exact (Policy.alike_ofRules hagree switches).sanitize (Policy.keyed_ofRules _ _)
          (Policy.keyed_ofRules _ _) html

/-- Two tag rules for the same name and one for another, an attribute rule twice, a style rule,
and lines that are ignored. -/
def shuffledRules : List Value :=
  [.text "p", .text "style|p|color", .text "P ", .text "a|b|c", .text "p|CLASS", .text "b", .int 7,
    .text "p|class"]

/-- The same rules in another order. -/
def sortedRules : List Value :=
  [.text "b", .text "p", .text "p", .text "p|class", .text "style|p|color"]

theorem sanitize_of_agree_shuffled :
    Rule.Agree (shuffledRules.map Rule.ofValue) (sortedRules.map Rule.ofValue) ∧
      (∃ policy other, Policy.compile (.list shuffledRules) .null = .ok policy ∧
        Policy.compile (.list sortedRules) .null = .ok other ∧ policy.Alike other ∧
        policy.tagBudget.find? "p" = some 2) ∧
      sanitize "<p>a<p>b<p>c" (.list shuffledRules) .null =
        sanitize "<p>a<p>b<p>c" (.list sortedRules) .null := by
  have hagree : Rule.Agree (shuffledRules.map Rule.ofValue) (sortedRules.map Rule.ofValue) :=
    ⟨by decide +kernel, by decide +kernel, by decide +kernel⟩
  obtain ⟨hcompile, hsanitize⟩ := sanitize_of_agree hagree .null
  obtain ⟨policy, other, hpolicy, hother, halike, hbudget⟩ := hcompile {} rfl
  refine ⟨hagree, ⟨policy, other, hpolicy, hother, halike, ?_⟩, hsanitize _⟩
  rw [hbudget "p"]
  decide +kernel

end Winnow
