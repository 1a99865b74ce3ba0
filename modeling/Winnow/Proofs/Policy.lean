import Winnow.Attributes
import Winnow.Proofs.Assoc
import Winnow.Proofs.Fault
import Winnow.Proofs.Rule

/-!
# What a compiled policy admits

The budget of an element name is the number of its tag rules, the attributes that are listed
for it are those of its attribute rules, and no style is allowed without a style rule.
-/

namespace Winnow

/-- The names that a table holds with the names under which it holds them. -/
def Assoc.pairs (table : Assoc (List String)) : List (String × String) :=
  table.flatMap fun entry => entry.2.map (entry.1, ·)

namespace Policy

theorem mem_grant_self {table : Assoc (List String)} {tag name other : String} :
    name ∈ ((grant table tag other).find? tag).getD [] ↔
      name ∈ (table.find? tag).getD [] ∨ name = other := by
  rw [grant, Assoc.find?_put, if_pos rfl, Option.getD_some, mem_addMember]

theorem find?_grant_of_ne {tag other : String} (hne : other ≠ tag) (table : Assoc (List String))
    (name : String) : (grant table tag name).find? other = table.find? other := by
  rw [grant, Assoc.find?_put, if_neg hne]

/-- Granting a name makes one new pair. -/
theorem mem_pairs_grant {table : Assoc (List String)} {tag name : String}
    {pair : String × String} :
    pair ∈ (grant table tag name).pairs ↔ pair ∈ table.pairs ∨ pair = (tag, name) := by
  induction table with
  | nil => simp [grant, Assoc.put, Assoc.pairs, addMember]
  | cons entry rest ih =>
      unfold grant Assoc.pairs at ih ⊢
      rw [Assoc.find?_cons, Assoc.put, List.flatMap_cons, List.mem_append]
      split
      next htag =>
        have hmembers : pair ∈ (addMember name entry.2).map (tag, ·) ↔
            pair ∈ entry.2.map (entry.1, ·) ∨ pair = (tag, name) := by
          simp only [List.mem_map, mem_addMember, or_and_right, exists_or, exists_eq_left, htag,
            eq_comm (a := pair)]
        rw [List.flatMap_cons, List.mem_append, Option.getD_some, hmembers, or_right_comm]
      next => rw [List.flatMap_cons, List.mem_append, ih, or_assoc]

variable {policy : Policy} {tag name : String}

theorem config_foldl_addRule (rules : List Rule) :
    (rules.foldl addRule policy).config = policy.config := by
  induction rules generalizing policy with
  | nil => rfl
  | cons rule rest ih =>
      rw [List.foldl_cons, ih]
      cases rule <;> rfl

theorem budgetFor_addRule (rule : Rule) :
    (policy.addRule rule).budgetFor tag =
      policy.budgetFor tag + if rule = .tag tag then 1 else 0 := by
  cases rule with
  | tag other =>
      unfold addRule
      rw [budgetFor, Assoc.find?_put]
      by_cases heq : tag = other
      · simp [heq]
      · simp [heq, Ne.symm heq, budgetFor]
  | _ => simp [addRule, budgetFor]

theorem budgetFor_foldl_addRule (rules : List Rule) :
    (rules.foldl addRule policy).budgetFor tag =
      policy.budgetFor tag + rules.count (.tag tag) := by
  induction rules generalizing policy with
  | nil => rfl
  | cons rule rest ih =>
      rw [List.foldl_cons, ih, budgetFor_addRule, List.count_cons, Nat.add_assoc,
        Nat.add_comm _ (rest.count _)]
      simp only [beq_iff_eq]

theorem mem_listed_addRule {rule : Rule} :
    name ∈ ((policy.addRule rule).attrAllow.find? tag).getD [] ↔
      name ∈ (policy.attrAllow.find? tag).getD [] ∨ rule = .attribute tag name := by
  match rule with
  | .attribute other member =>
      unfold addRule
      by_cases heq : tag = other
      · subst heq
        rw [mem_grant_self]
        simp [eq_comm]
      · rw [find?_grant_of_ne heq]
        simp [Ne.symm heq]
  | .tag _ | .style _ _ | .ignored _ => simp [addRule]

theorem mem_listed_foldl_addRule {rules : List Rule} :
    name ∈ ((rules.foldl addRule policy).attrAllow.find? tag).getD [] ↔
      name ∈ (policy.attrAllow.find? tag).getD [] ∨ .attribute tag name ∈ rules := by
  induction rules generalizing policy with
  | nil => simp
  | cons rule rest ih =>
      rw [List.foldl_cons, ih, mem_listed_addRule, List.mem_cons, or_assoc,
        eq_comm (a := Rule.attribute tag name)]

theorem mem_pairs_foldl_addRule {rules : List Rule} {pair : String × String} :
    pair ∈ (rules.foldl addRule policy).attrAllow.pairs ↔
      pair ∈ policy.attrAllow.pairs ∨ .attribute pair.1 pair.2 ∈ rules := by
  induction rules generalizing policy with
  | nil => simp
  | cons rule rest ih =>
      have hrule : pair ∈ (policy.addRule rule).attrAllow.pairs ↔
          pair ∈ policy.attrAllow.pairs ∨ rule = .attribute pair.1 pair.2 := by
        match rule with
        | .attribute tag name =>
            unfold addRule
            rw [mem_pairs_grant, Prod.ext_iff, Rule.attribute.injEq]
            simp only [eq_comm]
        | .tag _ | .style _ _ | .ignored _ => simp [addRule]
      rw [List.foldl_cons, ih, hrule, List.mem_cons, or_assoc,
        eq_comm (a := Rule.attribute pair.1 pair.2)]

/-- Only tag rules admit elements. -/
theorem mem_of_mem_tagBudget_foldl {rules : List Rule} {entry : String × Nat}
    (hmem : entry ∈ (rules.foldl addRule policy).tagBudget) :
    entry ∈ policy.tagBudget ∨ .tag entry.1 ∈ rules := by
  induction rules generalizing policy with
  | nil => exact Or.inl hmem
  | cons rule rest ih =>
      rcases ih hmem with hbefore | hrest
      · match rule with
        | .tag name =>
            refine (Assoc.mem_of_mem_put hbefore).symm.imp_right ?_
            rintro rfl
            exact List.mem_cons_self
        | .attribute _ _ | .style _ _ | .ignored _ => exact Or.inl hbefore
      · exact Or.inr (List.mem_cons_of_mem _ hrest)

theorem styleAllow_foldl_addRule {rules : List Rule}
    (hrules : ∀ selector property, .style selector property ∉ rules) :
    (rules.foldl addRule policy).styleAllow = policy.styleAllow := by
  induction rules generalizing policy with
  | nil => rfl
  | cons rule rest ih =>
      rw [List.foldl_cons, ih fun selector property hmem =>
        hrules selector property (List.mem_cons_of_mem _ hmem)]
      match rule with
      | .style selector property => exact absurd List.mem_cons_self (hrules selector property)
      | .tag _ | .attribute _ _ | .ignored _ => rfl

/-! ## Policies of rules -/

section OfRules

variable (rules : List Rule) (config : Config)

theorem config_ofRules : (ofRules rules config).config = config := config_foldl_addRule rules

/-- The budget of a name is the number of its tag rules. -/
theorem budgetFor_ofRules (tag : String) :
    (ofRules rules config).budgetFor tag = rules.count (.tag tag) := by
  rw [ofRules, budgetFor_foldl_addRule]
  exact Nat.zero_add _

end OfRules

variable {rules : List Rule} {config : Config}

/-- The attributes that are listed for a name are those of its attribute rules. -/
theorem mem_listed_ofRules :
    name ∈ ((ofRules rules config).attrAllow.find? tag).getD [] ↔ .attribute tag name ∈ rules := by
  rw [ofRules, mem_listed_foldl_addRule]
  simp

theorem mem_pairs_ofRules {pair : String × String} :
    pair ∈ (ofRules rules config).attrAllow.pairs ↔ .attribute pair.1 pair.2 ∈ rules := by
  rw [ofRules, mem_pairs_foldl_addRule]
  exact or_iff_right List.not_mem_nil

theorem mem_of_mem_tagBudget {entry : String × Nat}
    (hmem : entry ∈ (ofRules rules config).tagBudget) : .tag entry.1 ∈ rules :=
  (mem_of_mem_tagBudget_foldl hmem).resolve_left List.not_mem_nil

/-- Attributes are allowed if they are listed, unless the conventional ones are too. -/
theorem mem_allowedAttributes_of_uncommon {policy : Policy}
    (hcommon : policy.config.allowCommonAttributes = false) :
    name ∈ policy.allowedAttributes tag ↔ name ∈ (policy.attrAllow.find? tag).getD [] := by
  rw [allowedAttributes, hcommon, if_neg Bool.false_ne_true, mem_distinct]

theorem styleAllow_ofRules (hrules : ∀ selector property, .style selector property ∉ rules) :
    (ofRules rules config).styleAllow = [] :=
  styleAllow_foldl_addRule hrules

/-- Ordinary rule lines compile if the configuration can be read. -/
theorem compile_lines (lines : List String) {config : Value} {switches : Config}
    (hconfig : Config.ofValue config = .ok switches) :
    compile (Rule.lines lines) config = .ok (ofLines lines switches) := by
  rw [compile, Rule.items_lines, Fault.ok_bind, hconfig, Fault.ok_bind, List.map_map]
  rfl

end Policy

end Winnow
