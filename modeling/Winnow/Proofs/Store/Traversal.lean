import Winnow.Proofs.Document.Tree
import Winnow.Proofs.Store.FromTree

/-!
# The walk and the recursion

The walk over a store keeps the nodes still to visit on a stack and gives up when a bound on its
visits is reached. In a forest it comes to an end before that, and what it meets are the elements
that a recursion over the nodes meets: those at and below the first node, each of them once and in
document order, whatever other nodes stand between them.
-/

namespace Winnow.Store

variable {store : Store}

/-- The walk over a stack of pending nodes comes to its end and meets these elements. -/
inductive Walks (store : Store) : List Handle → List Handle → Prop
  | done : Walks store [] []
  | element {handle pending met} (helement : (store.label handle).isElement = true)
      (hrest : Walks store (store.children handle ++ pending) met) :
      Walks store (handle :: pending) (handle :: met)
  | other {handle pending met} (hother : (store.label handle).isElement = false)
      (hrest : Walks store (store.children handle ++ pending) met) :
      Walks store (handle :: pending) met

/-- Pending layouts are walked through before what is pending after them. -/
theorem Walks.of_layouts {forest : List Layout} (hholds : store.HoldsAll forest)
    {pending met : List Handle} (hpending : store.Walks pending met) :
    store.Walks (forest.map Layout.handle ++ pending) (store.elementsOf forest ++ met) := by
  -- What is pending is general, since the layouts below a node are walked through with those
  -- beside it pending.
  induction forest using Layout.forest_induction generalizing pending met with
  | nil => exact hpending
  | cons handle parts rest ihParts ihRest =>
      rw [holdsAll_cons, holds_node] at hholds
      have hrest := ihParts hholds.1.2 (ihRest hholds.2 hpending)
      rw [← hholds.1.1] at hrest
      rw [elementsOf_cons]
      cases helement : (store.label handle).isElement with
      | true =>
          rw [elementsOf_node_of_isElement helement, List.cons_append, List.cons_append,
            List.append_assoc]
          exact .element helement hrest
      | false =>
          rw [elementsOf_node_of_not_isElement helement, List.append_assoc]
          exact .other helement hrest

/-- What a recursion meets at and below a node, given what it meets below others: the node itself
if it is an element, and then what it meets for the children in their order. -/
def traversal (store : Store) (below : Handle → List Handle) (handle : Handle) : List Handle :=
  (if (store.label handle).isElement then [handle] else []) ++
    (store.children handle).flatMap below

theorem traversal_congr {below others : Handle → List Handle} {handle : Handle}
    (hbelow : ∀ child ∈ store.children handle, below child = others child) :
    store.traversal below handle = store.traversal others handle := by
  unfold traversal
  rw [List.flatMap_congr hbelow]

namespace IsForest

variable (hforest : store.IsForest)
include hforest

theorem walks_elements (handle : Handle) : store.Walks [handle] (store.elements handle) := by
  obtain ⟨parts, hchildren, hholds⟩ := hforest.exists_parts handle
  by_cases hlt : handle < store.cells.size
  · rw [hforest.elements_eq hchildren hholds hlt]
    have hlayout : store.HoldsAll [.node handle parts] :=
      (holdsAll_cons _ _).mpr ⟨(holds_node _ _).mpr ⟨hchildren, hholds⟩, trivial⟩
    have hwalks := Walks.of_layouts hlayout .done
    rw [List.append_nil, List.append_nil] at hwalks
    exact hwalks
  · have hsize := Nat.le_of_not_lt hlt
    rw [elements_of_size_le hsize]
    refine .other (Bool.eq_false_iff.mpr fun helement => hlt (lt_size_of_isElement helement)) ?_
    rw [children_eq_nil_of_size_le store handle hsize]
    exact .done

theorem elements_eq_traversal (handle : Handle) :
    store.elements handle = store.traversal store.elements handle := hforest.elements_node handle

/-- No other function follows the rule of the recursion. -/
theorem eq_elements_of_traversal {below : Handle → List Handle}
    (hbelow : ∀ handle, below handle = store.traversal below handle) (handle : Handle) :
    below handle = store.elements handle := by
  induction handle using hforest.below_induction with
  | step handle ih => rw [hbelow, traversal_congr ih, ← hforest.elements_eq_traversal]

/-- The elements that are met are those at and below the node. -/
theorem mem_elements_iff {handle other : Handle} : other ∈ store.elements handle ↔
    (store.label other).isElement = true ∧ (other = handle ∨ store.Above other handle) := by
  induction handle using hforest.below_induction with
  | step handle ih =>
      have hself : other ∈ (if (store.label handle).isElement then [handle] else []) ↔
          (store.label other).isElement = true ∧ other = handle := by
        split
        next helement =>
          rw [List.mem_singleton]
          exact (and_iff_right_of_imp fun heq => heq ▸ helement).symm
        next hother =>
          refine iff_of_false List.not_mem_nil ?_
          rintro ⟨helement, rfl⟩
          exact hother helement
      have hbelow : other ∈ (store.children handle).flatMap store.elements ↔
          (store.label other).isElement = true ∧ store.Above other handle := by
        rw [List.mem_flatMap, hforest.linked.above_iff, ← exists_and_left]
        refine exists_congr fun child => ?_
        rw [and_left_comm]
        exact and_congr_right fun hchild => ih child hchild
      rw [hforest.elements_node, List.mem_append, hself, hbelow, and_or_left]

/-- The trees below the elements that are met are the elements of the tree below the node. -/
theorem map_toTree_elements (handle : Handle) :
    (store.elements handle).map store.toTree = (store.toTree handle).elements := by
  induction handle using hforest.below_induction with
  | step handle ih =>
      have hchildren : ((store.children handle).flatMap store.elements).map store.toTree =
          ((store.children handle).map store.toTree).flatMap Tree.elements := by
        rw [List.map_flatMap, List.flatMap_map]
        exact List.flatMap_congr ih
      have htree := hforest.toTree_node handle
      rw [hforest.elements_node, List.map_append, hchildren, htree, Tree.elements_node, ← htree]
      split
      next => rfl
      next => rfl

/-- In a forest the walk with a stack comes to an end and meets what the recursion over the nodes
does, which is the only function that follows its rule: the elements at and below the first node,
each of them once. Read as trees these are the elements of the tree below the node, and those that
a walk over trees meets. -/
theorem elements_follow_recursion :
    (∀ handle, store.Walks [handle] (store.elements handle) ∧ (store.elements handle).Nodup) ∧
    (∀ below : Handle → List Handle,
      (∀ handle, below handle = store.traversal below handle) ↔ below = store.elements) ∧
    (∀ handle other, other ∈ store.elements handle ↔
      (store.label other).isElement = true ∧ (other = handle ∨ store.Above other handle)) ∧
    ∀ handle, (store.elements handle).map store.toTree = (store.toTree handle).elements ∧
      Tree.walk [store.toTree handle] = (store.toTree handle).elements := by
  refine ⟨fun handle => ⟨hforest.walks_elements handle, hforest.nodup_elements handle⟩,
    fun below => ⟨fun hbelow => funext (hforest.eq_elements_of_traversal hbelow), ?_⟩,
    fun handle other => hforest.mem_elements_iff,
    fun handle => ⟨hforest.map_toTree_elements handle, ?_⟩⟩
  · rintro rfl
    exact hforest.elements_eq_traversal
  · rw [Tree.walk_eq_flatMap, List.flatMap_singleton]

end IsForest

/-- A text, a comment and a document with an element in it, between elements. -/
def mixedPage : Tree :=
  .node .document [.node { tag := "div" } [.ofText "x", .node { tag := "i" } [],
    .node .document [.node { tag := "b" } []], .node (.ofComment "c") []], .node { tag := "u" } []]

theorem elements_follow_recursion_page :
    (ofTree mixedPage).Walks [0] [1, 3, 5, 7] ∧
      (ofTree mixedPage).elements 0 = (ofTree mixedPage).traversal (ofTree mixedPage).elements 0 ∧
      (ofTree mixedPage).Above 5 4 ∧ 4 ∉ (ofTree mixedPage).elements 0 := by
  obtain ⟨hwalks, hrule, hmem, -⟩ := (isForest_ofTree mixedPage).elements_follow_recursion
  have helements : (ofTree mixedPage).elements 0 = [1, 3, 5, 7] := by decide
  refine ⟨helements ▸ (hwalks 0).1, (hrule _).mpr rfl 0,
    .of_parent (by decide : (ofTree mixedPage).parent 5 = some 4), fun hdocument => ?_⟩
  have helement := ((hmem 0 4).mp hdocument).1
  revert helement
  decide

end Winnow.Store
