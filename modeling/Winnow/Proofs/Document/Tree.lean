import Winnow.Document.Store

/-!
# Every node of a tree

Document order is given by a recursion, and a walk with a stack of pending trees follows it.
-/

namespace Winnow

namespace Tree

theorem mem_preorderAll {part : Tree} {forest : List Tree} :
    part ∈ preorderAll forest ↔ ∃ tree ∈ forest, part ∈ tree.preorder := by
  induction forest with
  | nil => simp [preorderAll]
  | cons tree rest ih => simp [preorderAll, ih]

/-- Is this so of what every node of a tree is? -/
def All (p : Label → Prop) (tree : Tree) : Prop := ∀ part ∈ tree.preorder, p part.label

theorem preorderAll_append (front back : List Tree) :
    preorderAll (front ++ back) = preorderAll front ++ preorderAll back := by
  induction front with
  | nil => rfl
  | cons tree rest ih =>
      rw [List.cons_append, preorderAll, ih, preorderAll, List.append_assoc]

theorem all_node {p : Label → Prop} {label : Label} {children : List Tree} :
    (node label children).All p ↔ p label ∧ ∀ tree ∈ children, tree.All p := by
  unfold All
  rw [preorder]
  constructor
  · intro hall
    refine ⟨hall _ List.mem_cons_self, fun tree hmem part hpart => ?_⟩
    exact hall part (List.mem_cons_of_mem _ (mem_preorderAll.mpr ⟨tree, hmem, hpart⟩))
  · rintro ⟨hlabel, hchildren⟩ part hmem
    rcases List.mem_cons.mp hmem with rfl | hbelow
    · exact hlabel
    · obtain ⟨tree, htree, hpart⟩ := mem_preorderAll.mp hbelow
      exact hchildren tree htree part hpart

/-! ## The elements in document order -/

theorem preorderAll_eq_flatMap (forest : List Tree) :
    preorderAll forest = forest.flatMap preorder := by
  induction forest with
  | nil => rfl
  | cons tree rest ih => rw [preorderAll, ih, List.flatMap_cons]

/-- The elements of a tree are its root, if it is one, and those of the trees below in their
order. -/
theorem elements_node (label : Label) (children : List Tree) :
    elements (node label children) =
      (if label.isElement then [node label children] else []) ++ children.flatMap elements := by
  unfold elements
  rw [preorder, preorderAll_eq_flatMap, List.filter_cons, List.filter_flatMap]
  change (if label.isElement then _ else _) = _
  split
  next => rw [List.singleton_append]
  next => rw [List.nil_append]

/-- The walk with a stack meets the elements of the pending trees in document order. -/
theorem walk_eq_flatMap (pending : List Tree) : walk pending = pending.flatMap elements := by
  induction pending using walk.induct with
  | case1 =>
      rw [walk]
      rfl
  | case2 label children pending helement ih =>
      rw [walk, if_pos helement, ih, List.flatMap_cons, elements_node, if_pos helement,
        List.flatMap_append, List.append_assoc, List.singleton_append]
  | case3 label children pending hother ih =>
      rw [walk, if_neg hother, ih, List.flatMap_cons, elements_node, if_neg hother,
        List.flatMap_append, List.nil_append]

end Tree

namespace Store

/-- The tree below a node is made of nodes of the store. -/
theorem all_treeAt {p : Label → Prop} {store : Store} (hall : ∀ handle, p (store.label handle))
    (depth : Nat) (handle : Handle) : (store.treeAt depth handle).All p := by
  induction depth generalizing handle with
  | zero => exact Tree.all_node.mpr ⟨hall handle, fun tree hmem => by cases hmem⟩
  | succ depth ih =>
      refine Tree.all_node.mpr ⟨hall handle, fun tree hmem => ?_⟩
      obtain ⟨child, -, rfl⟩ := List.mem_map.mp hmem
      exact ih child

end Store

end Winnow
