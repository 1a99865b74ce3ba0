import Winnow.Proofs.Store.FromTree

/-!
# Document order after unwrapping

Every other node has after an unwrapping what it had before, with the children of the unwrapped
node in the place of that node. So a walk from a node above meets the same elements in the same
order, except for the one that is gone: a list of elements that was made before stays good.
-/

namespace Winnow.Store

variable {before after : Store} {handle parent : Handle} {front back : List Handle}

/-- What stands in the place of a node once one of them has been unwrapped. -/
def standIns (store : Store) (handle other : Handle) : List Handle :=
  if other = handle then store.children handle else [other]

theorem standIns_self (store : Store) (handle : Handle) :
    store.standIns handle handle = store.children handle := if_pos rfl

theorem standIns_of_ne (store : Store) {handle other : Handle} (hne : other ≠ handle) :
    store.standIns handle other = [other] := if_neg hne

/-- Where the unwrapped node is not listed, every node stands in for itself. -/
theorem flatMap_standIns_of_not_mem (store : Store) {handles : List Handle}
    (hnot : handle ∉ handles) : handles.flatMap (store.standIns handle) = handles := by
  induction handles with
  | nil => rfl
  | cons first rest ih =>
      rw [List.mem_cons, not_or] at hnot
      rw [List.flatMap_cons, standIns_of_ne store (Ne.symm hnot.1), ih hnot.2,
        List.singleton_append]

namespace Unwrapped

variable (hunwrapped : Unwrapped before after handle parent front back)
include hunwrapped

/-- The children that other nodes have are those that stand in for their old ones. -/
theorem children_eq (hlinked : before.Linked)
    (hchildren : before.children parent = front ++ handle :: back) {other : Handle}
    (hne : other ≠ handle) :
    after.children other = (before.children other).flatMap (before.standIns handle) := by
  by_cases hparent : other = parent
  · subst hparent
    have hnodup := hlinked.nodup_children other
    rw [hchildren, List.nodup_append, List.nodup_cons] at hnodup
    have hfront : handle ∉ front := fun hmem => hnodup.2.2 handle hmem handle List.mem_cons_self rfl
    rw [hunwrapped.children_parent, hchildren, List.flatMap_append, List.flatMap_cons,
      flatMap_standIns_of_not_mem before hfront, flatMap_standIns_of_not_mem before hnodup.2.1.1,
      standIns_self, List.append_assoc]
  · have hlink : before.parent handle = some parent := hlinked.parent_of_mem (by simp [hchildren])
    rw [hunwrapped.children_other other hne hparent,
      flatMap_standIns_of_not_mem before (hlinked.not_mem_children_of_parent_ne hlink hparent)]

/-- What stands in for a node has below it the elements that the node had, except for the
unwrapped one. -/
theorem flatMap_elements (hforest : before.IsForest) (hafter : after.IsForest)
    (hchildren : before.children parent = front ++ handle :: back) (other : Handle) :
    (before.standIns handle other).flatMap after.elements =
      (before.elements other).filter (· != handle) := by
  -- The statement takes in the unwrapped node itself, by way of its children. Otherwise the
  -- induction would have nothing to say of its parent, which has these children afterwards.
  induction other using hforest.below_induction with
  | step other ih =>
      have hbelow : ((before.children other).flatMap (before.standIns handle)).flatMap
          after.elements =
          ((before.children other).flatMap before.elements).filter (· != handle) := by
        rw [List.flatMap_assoc, List.filter_flatMap]
        exact List.flatMap_congr ih
      by_cases hself : other = handle
      · subst hself
        have hnot : other ∉ before.children other := fun hmem =>
          hforest.parent_ne_self (hforest.linked.parent_of_mem hmem) rfl
        rw [flatMap_standIns_of_not_mem before hnot] at hbelow
        rw [standIns_self, hbelow, hforest.elements_node other, List.filter_append]
        split
        next => simp
        next => simp
      · rw [standIns_of_ne before hself, List.flatMap_singleton, hafter.elements_node other,
          hunwrapped.label, hunwrapped.children_eq hforest.linked hchildren hself, hbelow,
          hforest.elements_node other, List.filter_append]
        split
        next => simp [hself]
        next => simp

end Unwrapped

/-- Unwrapping puts the children of a node in its place and leaves the node on its own; no other
node changes in any way, and every node above meets the same elements as before in the same
order, without the unwrapped one. -/
theorem IsForest.unwrap_in_place {store : Store} (hforest : store.IsForest)
    (hchildren : store.children parent = front ++ [handle] ++ back) :
    ∃ after, store.unwrap handle = (after, none) ∧
      Unwrapped store after handle parent front back ∧
      ∀ upper, store.Above handle upper →
        after.elements upper = (store.elements upper).erase handle ∧
          handle ∉ after.elements upper := by
  rw [List.append_assoc, List.singleton_append] at hchildren
  have hparent : store.parent handle = some parent :=
    hforest.linked.parent_of_mem (by simp [hchildren])
  obtain ⟨after, hafter, hunwrapped⟩ :=
    hforest.linked.exists_unwrap (hforest.parent_ne_self hparent) hchildren
  refine ⟨after, hafter, hunwrapped, fun upper habove => ?_⟩
  have hne : upper ≠ handle := fun heq => hforest.acyclic handle (heq ▸ habove)
  have helements := hunwrapped.flatMap_elements hforest (hforest.unwrapped hparent hunwrapped)
    hchildren upper
  rw [standIns_of_ne store hne, List.flatMap_singleton] at helements
  rw [helements, (hforest.nodup_elements upper).erase_eq_filter]
  exact ⟨rfl, by simp⟩

/-- A paragraph between two other elements, with a bold element and a text in it. -/
def paragraphBetween : Tree :=
  .node .document [.node { tag := "div" } [.node { tag := "i" } [],
    .node { tag := "p" } [.node { tag := "b" } [], .ofText "x"], .node { tag := "u" } []]]

theorem unwrap_in_place_paragraph :
    (ofTree paragraphBetween).children 1 = [2] ++ [3] ++ [6] ∧
      (ofTree paragraphBetween).Above 3 0 ∧
      (ofTree paragraphBetween).elements 0 = [1, 2, 3, 4, 6] ∧
      ∃ after, (ofTree paragraphBetween).unwrap 3 = (after, none) ∧
        after.children 1 = [2, 4, 5, 6] ∧ after.parent 5 = some 1 ∧ after.parent 3 = none ∧
        after.children 3 = [] ∧ after.elements 0 = [1, 2, 4, 6] := by
  have hchildren : (ofTree paragraphBetween).children 1 = [2] ++ [3] ++ [6] := by decide
  have habove : (ofTree paragraphBetween).Above 3 0 :=
    .tail (.single (by decide : (ofTree paragraphBetween).parent 3 = some 1))
      (by decide : (ofTree paragraphBetween).parent 1 = some 0)
  have helements : (ofTree paragraphBetween).elements 0 = [1, 2, 3, 4, 6] := by decide
  have hinside : (ofTree paragraphBetween).children 3 = [4, 5] := by decide
  obtain ⟨after, hafter, hunwrapped, hwalks⟩ :=
    (isForest_ofTree paragraphBetween).unwrap_in_place hchildren
  refine ⟨hchildren, habove, helements, after, hafter, ?_, ?_, hunwrapped.parent_self,
    hunwrapped.children_self, ?_⟩
  · rw [hunwrapped.children_parent, hinside]
    rfl
  · exact hunwrapped.parent_child 5 (by rw [hinside]; decide)
  · rw [(hwalks 0 habove).1, helements]
    rfl

end Winnow.Store
