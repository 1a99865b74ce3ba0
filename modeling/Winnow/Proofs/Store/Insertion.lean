import Winnow.Proofs.Store.Edits
import Winnow.Proofs.Store.FromTree

/-!
# A node put before a child

A node that is put before a child leaves the place it had, among other siblings or on either side
of that child, and stands directly before the child from then on. No other node changes in any way.
Nothing happens where the reference is no child.
-/

namespace Winnow.Store

variable {store : Store} {target item reference : Handle}

/-- A node has been taken from its place and put directly before a reference, which stands among
the other children of a target. -/
structure PutBefore (before after : Store) (target item reference : Handle) : Prop where
  size : after.cells.size = before.cells.size
  label : ∀ other, after.label other = before.label other
  parent_item : after.parent item = some target
  parent_other : ∀ other, other ≠ item → after.parent other = before.parent other
  mem_others : reference ∈ (before.children target).erase item
  children_target : ∀ front back, (before.children target).erase item = front ++ reference :: back →
    after.children target = front ++ item :: reference :: back
  /-- Another former parent has lost the node and nothing else. -/
  children_former : ∀ former, before.parent item = some former → former ≠ target →
    item ∈ before.children former ∧
      after.children former = (before.children former).erase item
  children_other : ∀ other, other ≠ target → before.parent item ≠ some other →
    after.children other = before.children other

theorem Moved.putBefore {before after : Store} (hmoved : Moved before after target item
      (placeBefore item reference ((before.children target).erase item)))
    (hlinked : before.Linked) (hothers : reference ∈ (before.children target).erase item) :
    PutBefore before after target item reference where
  size := hmoved.size
  label := hmoved.label
  parent_item := by rw [hmoved.parent, if_pos rfl]
  parent_other other hother := by rw [hmoved.parent, if_neg hother]
  mem_others := hothers
  children_target front back hsplit := by
    -- Children are distinct, so that the reference is met first where the list is split at it.
    have hnodup := (hlinked.nodup_children target).erase item
    rw [hsplit, List.nodup_append] at hnodup
    have hfront : reference ∉ front := fun hmem =>
      hnodup.2.2 reference hmem reference List.mem_cons_self rfl
    rw [hmoved.children_target, hsplit, placeBefore_append front back hfront]
  children_former former hformer hne :=
    ⟨hlinked.mem_of_parent hformer, hmoved.children_other former hne⟩
  children_other other hne hformer := by
    have hnot : item ∉ before.children other := fun hmem => hformer (hlinked.parent_of_mem hmem)
    rw [hmoved.children_other other hne, List.erase_of_not_mem hnot]

/-- A node that is neither the target nor above it can be put before any other node. If that is a
child of the target, the node moves to the place directly before it, and what is left is a forest
in which nothing else has changed. If it is not, nothing happens. -/
theorem IsForest.insertBefore_in_place (hforest : store.IsForest) (hitem : item < store.cells.size)
    (hne : item ≠ reference) (hapart : ¬ (target = item ∨ store.Above target item)) :
    (reference ∉ store.children target →
      store.insertBefore target item reference = (store, none)) ∧
    (reference ∈ store.children target → ∃ after,
      store.insertBefore target item reference = (after, none) ∧ after.IsForest ∧
        PutBefore store after target item reference) := by
  refine ⟨insertBefore_of_not_mem, fun hreference => ?_⟩
  obtain ⟨after, hafter, hlinked, hmoved⟩ :=
    hforest.linked.exists_insertBefore hreference hitem (Ne.symm hne)
  refine ⟨after, hafter, hforest.moved hmoved hlinked hapart, ?_⟩
  exact hmoved.putBefore hforest.linked ((List.mem_erase_of_ne (Ne.symm hne)).mpr hreference)

/-- Three elements beside each other, the last of which has a child. -/
def threeBeside : Tree :=
  .node .document [.node { tag := "a" } [], .node { tag := "b" } [],
    .node { tag := "c" } [.node { tag := "i" } []]]

/-- The first of the three moves to the place before the third, the third to the place before the
first, and its child there from below it. A reference that is no child stops nothing. -/
theorem insertBefore_in_place_beside :
    (ofTree threeBeside).children 0 = [1, 2, 3] ∧ (ofTree threeBeside).parent 4 = some 3 ∧
      (∃ after, (ofTree threeBeside).insertBefore 0 1 3 = (after, none) ∧
        after.children 0 = [2, 1, 3]) ∧
      (∃ after, (ofTree threeBeside).insertBefore 0 3 1 = (after, none) ∧
        after.children 0 = [3, 1, 2]) ∧
      (∃ after, (ofTree threeBeside).insertBefore 0 4 1 = (after, none) ∧
        after.children 0 = [4, 1, 2, 3] ∧ after.children 3 = []) ∧
      (ofTree threeBeside).insertBefore 0 1 4 = (ofTree threeBeside, none) := by
  have hroot : (ofTree threeBeside).parent 0 = none := by decide
  have hput : ∀ item reference : Handle, item < (ofTree threeBeside).cells.size →
      item ≠ reference → 0 ≠ item → reference ∈ (ofTree threeBeside).children 0 →
      ∃ after, (ofTree threeBeside).insertBefore 0 item reference = (after, none) ∧
        PutBefore (ofTree threeBeside) after 0 item reference := by
    intro item reference hitem hne hapart hreference
    obtain ⟨after, hafter, -, hput⟩ := ((isForest_ofTree threeBeside).insertBefore_in_place hitem
      hne (not_or.mpr ⟨hapart, not_above_of_parent_eq_none hroot⟩)).2 hreference
    exact ⟨after, hafter, hput⟩
  refine ⟨by decide, by decide, ?_, ?_, ?_, ?_⟩
  · obtain ⟨after, hafter, hput⟩ := hput 1 3 (by decide) (by decide) (by decide) (by decide)
    exact ⟨after, hafter, hput.children_target [2] [] (by decide)⟩
  · obtain ⟨after, hafter, hput⟩ := hput 3 1 (by decide) (by decide) (by decide) (by decide)
    exact ⟨after, hafter, hput.children_target [] [2] (by decide)⟩
  · obtain ⟨after, hafter, hput⟩ := hput 4 1 (by decide) (by decide) (by decide) (by decide)
    refine ⟨after, hafter, hput.children_target [] [2, 3] (by decide), ?_⟩
    rw [(hput.children_former 3 (by decide) (by decide)).2]
    decide
  · exact ((isForest_ofTree threeBeside).insertBefore_in_place (by decide) (by decide)
      (not_or.mpr ⟨by decide, not_above_of_parent_eq_none hroot⟩)).1 (by decide)

end Winnow.Store
