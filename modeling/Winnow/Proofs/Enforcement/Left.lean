import Winnow.Proofs.Enforcement.Guarantee
import Winnow.Proofs.Enforcement.Refinement

/-!
# Elements that are left

Every element of the tree that a pass leaves is what the policy leaves of one that was there. A
style element holds the filtered text of that one and nothing else.
-/

namespace Winnow

/-- Is this element what a policy leaves of another? -/
structure Policy.Leaves (policy : Policy) (before after : Tree) : Prop where
  complies : policy.Complies before.label after.label
  sheet : Text.lower after.label.tag = "style" → ∃ text,
    policy.filterStyleText before.directText = .ok (some text) ∧ after.children = [.ofText text]

/-- Is every element of a forest what a policy leaves of one of these trees? -/
def Policy.LeftOf (policy : Policy) (origins forest : List Tree) : Prop :=
  ∀ after ∈ Tree.preorderAll forest, after.label.isElement = true →
    ∃ before ∈ origins, policy.Leaves before after

namespace Tree

variable {policy : Policy} {usage reached : Usage} {label : Label} {children : List Tree}

theorem complies_of_treatment (helement : label.isElement = true) {counted : Bool}
    (htreatment : policy.treatment usage (Text.lower label.tag) = .keep counted)
    {attributes : Attributes}
    (hattributes : policy.filterAttributes (Text.lower label.tag) label.attributes =
      .ok attributes) :
    policy.Complies label { label with attributes := attributes } := by
  obtain ⟨hallowed, hbudget⟩ := Policy.of_treatment_eq_keep htreatment
  have hroom : isStructural (Text.lower label.tag) = true ∨
      0 < policy.effectiveBudget (Text.lower label.tag) :=
    hbudget.imp (fun hfree => hfree.2) fun hcounted => Nat.zero_lt_of_lt hcounted.2.2
  exact (Policy.Keeps.element label attributes helement hallowed hroom hattributes).complies
    helement

theorem mem_preorderAll_node {part : Tree} : part ∈ preorderAll [node label children] ↔
    part = node label children ∨ part ∈ preorderAll children := by
  rw [preorderAll, preorderAll, List.append_nil, preorder, List.mem_cons]

/-- The elements that are left of a tree, if this is known of those below it. -/
theorem exists_leaves_of_trimLoose {result : List Tree}
    (hchildren : ∀ {usage reached : Usage} {left : List Tree},
      trimLooseAll policy usage children = .ok (left, reached) →
        policy.LeftOf (preorderAll children) left)
    (hok : trimLoose policy usage (.node label children) = .ok (result, reached)) :
    policy.LeftOf (node label children).preorder result := by
  have hbelow : ∀ {usage reached : Usage} {left : List Tree},
      trimLooseAll policy usage children = .ok (left, reached) →
        policy.LeftOf (node label children).preorder left := by
    intro usage reached left hok after hmem helement
    obtain ⟨before, hbefore, hleaves⟩ := hchildren hok after hmem helement
    rw [preorder]
    exact ⟨before, List.mem_cons_of_mem _ hbefore, hleaves⟩
  have hself : node label children ∈ (node label children).preorder := by
    rw [preorder]
    exact List.mem_cons_self
  intro after hmem hafter
  cases trimmed_of_trimLoose hok with
  | other hother hok =>
      rcases mem_preorderAll_node.mp hmem with rfl | hmem
      · change label.isElement = true at hafter
        rw [hother] at hafter
        cases hafter
      · exact hbelow hok after hmem hafter
  | remove => cases hmem
  | unwrap _ _ hok => exact hbelow hok after hmem hafter
  | keep helement htreatment hattributes hstyle hok =>
      rcases mem_preorderAll_node.mp hmem with rfl | hmem
      · exact ⟨_, hself, complies_of_treatment helement htreatment hattributes,
          fun h => absurd h hstyle⟩
      · exact hbelow hok after hmem hafter
  | sheet helement htreatment hattributes hstyle htext =>
      rcases mem_preorderAll_node.mp hmem with rfl | hmem
      · exact ⟨_, hself, complies_of_treatment helement htreatment hattributes,
          fun _ => ⟨_, htext, rfl⟩⟩
      · -- Below a style element there is nothing but the text that it has been given.
        obtain rfl := (mem_preorderAll_node.mp hmem).resolve_right List.not_mem_nil
        change (Label.ofText _).isElement = true at hafter
        rw [Label.isElement_ofText] at hafter
        cases hafter
  | blank => cases hmem

theorem exists_leaves_of_trimLooseAll (forest : List Tree) :
    ∀ {usage reached : Usage} {result : List Tree},
      trimLooseAll policy usage forest = .ok (result, reached) →
        policy.LeftOf (preorderAll forest) result := by
  induction forest using forest_induction with
  | nil =>
      intro usage reached result hok after hmem
      rw [trimLooseAll] at hok
      cases hok
      cases hmem
  | cons label children rest ihChildren ihRest =>
      intro usage reached result hok after hmem helement
      obtain ⟨front, middle, back, hfirst, hsecond, rfl⟩ := exists_of_trimLooseAll_cons hok
      rw [preorderAll_append] at hmem
      rcases List.mem_append.mp hmem with hfront | hback
      · obtain ⟨before, hbefore, hleaves⟩ :=
          exists_leaves_of_trimLoose ihChildren hfirst after hfront helement
        exact ⟨before, List.mem_append_left _ hbefore, hleaves⟩
      · obtain ⟨before, hbefore, hleaves⟩ := ihRest hsecond after hback helement
        exact ⟨before, List.mem_append_right _ hbefore, hleaves⟩

/-- A pass over a document leaves of its elements what the policy leaves of them. -/
theorem exists_leaves_of_enforce {document left : Tree} {tally : Tally}
    (hdocument : document.label.tag = "#document")
    (hok : document.enforce policy = .ok (left, tally)) :
    ∀ after ∈ left.elements, ∃ before ∈ document.elements, policy.Leaves before after := by
  have htrim := trimLoose_of_enforce hdocument hok
  intro after hmem
  obtain ⟨hpart, helement⟩ := List.mem_filter.mp hmem
  obtain ⟨label, children⟩ := document
  obtain ⟨before, hbefore, hleaves⟩ := exists_leaves_of_trimLoose
    (exists_leaves_of_trimLooseAll children) htrim after
    (mem_preorderAll.mpr ⟨_, List.mem_singleton_self _, hpart⟩) helement
  refine ⟨before, List.mem_filter.mpr ⟨hbefore, ?_⟩, hleaves⟩
  rw [Label.isElement, hleaves.complies.tag] at helement
  exact helement

/-! ## Every node that is left -/

section All

variable {p q : Label → Prop}
  (hother : ∀ {label : Label}, label.isElement = false → p label → q label)
  (helement : ∀ {before after : Label}, after.isElement = true → p before →
    policy.Complies before after → q after)
  (htext : ∀ text, q (.ofText text))
include hother helement htext

theorem all_of_trimLooseAll {forest : List Tree} :
    ∀ {usage reached : Usage} {result : List Tree}, (∀ tree ∈ forest, tree.All p) →
      trimLooseAll policy usage forest = .ok (result, reached) → ∀ tree ∈ result, tree.All q := by
  induction forest using forest_induction with
  | nil =>
      intro usage reached result _ hok
      rw [trimLooseAll] at hok
      cases hok
      exact List.forall_mem_nil _
  | cons label children rest ihChildren ihRest =>
      intro usage reached result hall hok
      obtain ⟨front, middle, back, hfirst, hsecond, rfl⟩ := exists_of_trimLooseAll_cons hok
      obtain ⟨htree, hrest⟩ := List.forall_mem_cons.mp hall
      obtain ⟨hlabel, hchildren⟩ := all_node.mp htree
      refine List.forall_mem_append.mpr ⟨?_, ihRest hrest hsecond⟩
      cases trimmed_of_trimLoose hfirst with
      | other hnone hbelow =>
          exact List.forall_mem_singleton.mpr
            (all_node.mpr ⟨hother hnone hlabel, ihChildren hchildren hbelow⟩)
      | remove => exact List.forall_mem_nil _
      | unwrap _ _ hbelow => exact ihChildren hchildren hbelow
      | keep hsome htreatment hattributes _ hbelow =>
          exact List.forall_mem_singleton.mpr (all_node.mpr
            ⟨helement hsome hlabel (complies_of_treatment hsome htreatment hattributes),
              ihChildren hchildren hbelow⟩)
      | sheet hsome htreatment hattributes =>
          have hcontent : ∀ text, ∀ tree ∈ [ofText text], tree.All q := fun text =>
            List.forall_mem_singleton.mpr (all_node.mpr ⟨htext text, List.forall_mem_nil _⟩)
          exact List.forall_mem_singleton.mpr (all_node.mpr
            ⟨helement hsome hlabel (complies_of_treatment hsome htreatment hattributes),
              hcontent _⟩)
      | blank => exact List.forall_mem_nil _

/-- What is so of the nodes of a document, of the elements that stay as they are left and of all
texts, is so of every node that a pass leaves. -/
theorem all_of_enforce {document left : Tree} {tally : Tally}
    (hdocument : document.label.tag = "#document") (hall : document.All p)
    (hok : document.enforce policy = .ok (left, tally)) : left.All q := by
  have hwhole : trimLooseAll policy {} [document] = .ok ([left], tally.usage) := by
    rw [trimLooseAll, trimLoose_of_enforce hdocument hok]
    rfl
  exact all_of_trimLooseAll hother helement htext (List.forall_mem_singleton.mpr hall) hwhole left
    List.mem_cons_self

end All

end Tree

end Winnow
