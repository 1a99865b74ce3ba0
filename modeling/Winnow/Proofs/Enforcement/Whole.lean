import Winnow.Proofs.Document.Whole
import Winnow.Proofs.Enforcement.Counting
import Winnow.Proofs.Enforcement.Refinement

/-!
# Whole documents stay whole

The elements that every document has are kept wherever they stand, so enforcing a policy leaves a
whole document whole.
-/

namespace Winnow

namespace Tree

variable {policy : Policy} {usage reached : Usage}

/-- Is a tree what is left of another whose top stays, with other attributes perhaps? -/
def Remains (policy : Policy) (before after : Tree) : Prop :=
  (∃ attributes, after.label = { before.label with attributes := attributes }) ∧
    ∃ usage reached, trimLooseAll policy usage before.children = .ok (after.children, reached)

theorem Remains.tag {before after : Tree} (hremains : before.Remains policy after) :
    after.label.tag = before.label.tag := by
  obtain ⟨⟨attributes, hlabel⟩, -⟩ := hremains
  rw [hlabel]

theorem Remains.space {before after : Tree} (hremains : before.Remains policy after) :
    after.label.space = before.label.space := by
  obtain ⟨⟨attributes, hlabel⟩, -⟩ := hremains
  rw [hlabel]

theorem isElement_of_structural {label : Label} (hname : label.tag ∈ structuralTags) :
    label.isElement = true := by
  have hknown : ∀ name ∈ structuralTags, Label.isElement { tag := name } = true := by decide
  exact hknown label.tag hname

/-- Elements that every document has stay. -/
theorem remains_of_structural {tree : Tree} {result : List Tree}
    (hname : tree.label.tag ∈ structuralTags)
    (hok : tree.trimLoose policy usage = .ok (result, reached)) :
    ∃ after, result = [after] ∧ tree.Remains policy after := by
  obtain ⟨label, children⟩ := tree
  have hknown : ∀ name ∈ structuralTags, Text.lower name = name ∧ name ≠ "script" ∧
      name ≠ "style" ∧ isStructural name = true := by decide
  obtain ⟨hlower, hscript, hstyle, hstructural⟩ := hknown label.tag hname
  have hforbids : policy.forbids label.tag = false := by simp [Policy.forbids, hscript, hstyle]
  have htreatment : policy.treatment usage label.tag = .keep false := by
    rw [Policy.treatment, hforbids, if_neg Bool.false_ne_true, if_pos hstructural]
  have helement : label.isElement = true := isElement_of_structural hname
  rw [trimLoose, helement, hlower] at hok
  simp only [htreatment, Bool.not_true, Bool.false_eq_true, if_false, if_neg hstyle] at hok
  obtain ⟨attributes, -, hok⟩ := Fault.exists_of_bind_eq_ok hok
  obtain ⟨⟨left, after⟩, hchildren, hresult⟩ := Fault.exists_of_bind_eq_ok hok
  cases hresult
  exact ⟨_, rfl, ⟨attributes, rfl⟩, usage, _, hchildren⟩

/-- Nodes that are no elements stay. -/
theorem remains_of_not_isElement {tree : Tree} {result : List Tree}
    (hother : tree.label.isElement = false)
    (hok : tree.trimLoose policy usage = .ok (result, reached)) :
    ∃ after, result = [after] ∧ tree.Remains policy after := by
  obtain ⟨label, children⟩ := tree
  change label.isElement = false at hother
  rw [trimLoose, hother] at hok
  obtain ⟨⟨left, after⟩, hchildren, hresult⟩ := Fault.exists_of_bind_eq_ok hok
  cases hresult
  exact ⟨_, rfl, ⟨label.attributes, rfl⟩, usage, _, hchildren⟩

/-- Elements that every document has stay in their order wherever they stand. -/
theorem exists_sublist_of_trimLooseAll {kept forest result : List Tree}
    (hkept : kept.Sublist forest) (hnames : ∀ tree ∈ kept, tree.label.tag ∈ structuralTags)
    (hok : trimLooseAll policy usage forest = .ok (result, reached)) :
    ∃ left, left.Sublist result ∧ List.Forall₂ (Remains policy) kept left := by
  induction hkept generalizing usage result with
  | slnil => exact ⟨[], List.nil_sublist _, .nil⟩
  | cons tree hsublist ih =>
      obtain ⟨front, middle, back, -, hback, rfl⟩ := exists_of_trimLooseAll_cons hok
      obtain ⟨left, hleft, hremain⟩ := ih hnames hback
      exact ⟨left, hleft.trans (List.sublist_append_right front back), hremain⟩
  | cons_cons tree hsublist ih =>
      obtain ⟨front, middle, back, hfront, hback, rfl⟩ := exists_of_trimLooseAll_cons hok
      obtain ⟨after, rfl, hafter⟩ := remains_of_structural (hnames tree List.mem_cons_self) hfront
      obtain ⟨left, hleft, hremain⟩ :=
        ih (fun other hmem => hnames other (List.mem_cons_of_mem _ hmem)) hback
      exact ⟨after :: left, hleft.cons_cons after, .cons hafter hremain⟩

/-- Where no other elements stand, none come there. -/
theorem filter_of_trimLooseAll {forest result tops : List Tree}
    (htops : forest.filter (·.label.isElement) = tops)
    (hnames : ∀ tree ∈ tops, tree.label.tag ∈ structuralTags)
    (hok : trimLooseAll policy usage forest = .ok (result, reached)) :
    List.Forall₂ (Remains policy) tops (result.filter (·.label.isElement)) := by
  induction forest generalizing usage result tops with
  | nil =>
      cases htops
      rw [trimLooseAll] at hok
      cases hok
      exact .nil
  | cons tree rest ih =>
      obtain ⟨front, middle, back, hfront, hback, rfl⟩ := exists_of_trimLooseAll_cons hok
      cases helement : tree.label.isElement with
      | true =>
          rw [List.filter_cons, if_pos helement] at htops
          subst htops
          have hname := hnames tree List.mem_cons_self
          obtain ⟨after, rfl, hafter⟩ := remains_of_structural hname hfront
          have hstays : after.label.isElement = true :=
            isElement_of_structural (hafter.tag ▸ hname)
          rw [List.singleton_append, List.filter_cons, if_pos hstays]
          exact .cons hafter
            (ih rfl (fun other hmem => hnames other (List.mem_cons_of_mem _ hmem)) hback)
      | false =>
          rw [List.filter_cons, if_neg (by simp [helement])] at htops
          obtain ⟨after, rfl, hafter⟩ := remains_of_not_isElement helement hfront
          have hstays : after.label.isElement = false :=
            (Label.isElement_congr hafter.tag).trans helement
          rw [List.singleton_append, List.filter_cons, if_neg (by simp [hstays])]
          exact ih htops hnames hback

theorem map_tag_of_remains {before after : List Tree}
    (hremain : List.Forall₂ (Remains policy) before after) :
    after.map (·.label.tag) = before.map (·.label.tag) := by
  induction hremain with
  | nil => rfl
  | cons hfirst _ ih => rw [List.map_cons, List.map_cons, hfirst.tag, ih]

theorem space_of_remains {before after : List Tree}
    (hremain : List.Forall₂ (Remains policy) before after)
    (hspace : ∀ tree ∈ before, tree.label.space = .html) :
    ∀ tree ∈ after, tree.label.space = .html := by
  induction hremain with
  | nil => exact fun tree hmem => absurd hmem List.not_mem_nil
  | cons hfirst _ ih =>
      intro tree hmem
      rcases List.mem_cons.mp hmem with rfl | hrest
      · exact hfirst.space.trans (hspace _ List.mem_cons_self)
      · exact ih (fun other hother => hspace other (List.mem_cons_of_mem _ hother)) tree hrest

/-- What remains of a whole document is whole. -/
theorem Whole.remains {frames : Bool} {before after : Tree} (whole : before.Whole frames)
    (hremains : before.Remains policy after) : Nonempty (after.Whole frames) := by
  obtain ⟨-, usage, reached, hchildren⟩ := hremains
  have hroot : ∀ tree ∈ [whole.root], tree.label.tag ∈ structuralTags := by
    intro tree hmem
    rw [List.mem_singleton.mp hmem, whole.tag_root]
    decide
  have htop := filter_of_trimLooseAll whole.single hroot hchildren
  obtain ⟨root, others, hkept, hothers, htop⟩ := List.forall₂_cons_left_iff.mp htop
  obtain rfl := List.forall₂_nil_left_iff.mp hothers
  obtain ⟨inner, left, hinner⟩ := hkept.2
  have hparts : ∀ tree ∈ whole.parts, tree.label.tag ∈ structuralTags :=
    fun tree hmem => List.mem_cons_of_mem _ (whole.isHtml_parts tree hmem).1
  obtain ⟨parts, hsublist, hremain⟩ :=
    exists_sublist_of_trimLooseAll whole.sublist hparts hinner
  have hall := List.Forall₂.cons hkept hremain
  exact ⟨{
    root := root
    parts := parts
    single := htop
    sublist := hsublist
    tag_root := hkept.tag.trans whole.tag_root
    tag_parts := (map_tag_of_remains hremain).trans whole.tag_parts
    space := space_of_remains hall whole.space }⟩

/-- A whole document stays whole under every policy. -/
theorem Whole.enforce {frames : Bool} {tree document : Tree} {tally : Tally}
    (whole : tree.Whole frames) (htag : tree.label.tag = "#document")
    (hok : tree.enforce policy = .ok (document, tally)) :
    Nonempty (document.Whole frames) ∧ document.label.tag = "#document" := by
  -- The pass over the document is the plain recursion, and of that the document is no element.
  have htrim := trimLoose_of_enforce htag hok
  have hother : tree.label.isElement = false := by
    rw [Label.isElement, htag]
    decide
  obtain ⟨after, hafter, hremains⟩ := remains_of_not_isElement hother htrim
  obtain rfl := List.singleton_inj.mp hafter
  exact ⟨whole.remains hremains, hremains.tag.trans htag⟩

end Tree

end Winnow
