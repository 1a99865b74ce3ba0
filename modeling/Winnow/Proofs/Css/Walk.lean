import Winnow.Css.Node

/-!
# Searching a forest

A search with a stack of nodes still to visit finds what the recursion over the forest finds. The
two go through the forest in different orders, but each meets every node once.
-/

namespace Winnow.Css.Node

variable (p : Node → Bool)

theorem holdsIn_append (front back : List Node) :
    holdsIn p (front ++ back) = (holdsIn p front || holdsIn p back) := by
  induction front with
  | nil => rfl
  | cons node rest ih => rw [List.cons_append, holdsIn, holdsIn, ih, Bool.or_assoc]

theorem holdsAt_eq (node : Node) : holdsAt p node = (p node || holdsIn p node.inner) := by
  cases node with
  | token t => simp [holdsAt, inner, holdsIn]
  | block bracket content => rfl
  | function name arguments => rfl
  | declaration name value important => rfl
  | rule selectors content => rw [holdsAt, inner, holdsIn_append, Bool.or_assoc]
  | atRule name subject content =>
      cases content with
      | none => rw [holdsAt, inner, Option.getD_none, List.append_nil]
      | some content => rw [holdsAt, inner, Option.getD_some, holdsIn_append, Bool.or_assoc]

theorem holdsIn_eq_any (nodes : List Node) : holdsIn p nodes = nodes.any (holdsAt p) := by
  induction nodes with
  | nil => rfl
  | cons node rest ih => rw [holdsIn, ih, List.any_cons]

/-- The order of siblings makes no difference to a search by recursion. -/
theorem holdsIn_perm {nodes others : List Node} (hperm : nodes.Perm others) :
    holdsIn p nodes = holdsIn p others := by
  rw [holdsIn_eq_any, holdsIn_eq_any]
  exact hperm.any_eq

theorem holdsIn_reverse (nodes : List Node) : holdsIn p nodes.reverse = holdsIn p nodes :=
  holdsIn_perm p (List.reverse_perm nodes)

theorem any_walkStack (pending : List Node) : (walkStack pending).any p = holdsIn p pending := by
  induction pending using walkStack.induct with
  | case1 => rw [walkStack]; rfl
  | case2 node pending ih =>
      rw [walkStack, List.any_cons, ih, holdsIn_append, holdsIn_reverse, holdsIn, holdsAt_eq,
        Bool.or_assoc]

theorem any_walk (nodes : List Node) : (walk nodes).any p = holdsIn p nodes := by
  rw [walk, any_walkStack, holdsIn_reverse]

theorem containsUrl_eq (nodes : List Node) : containsUrl nodes = holdsIn isUrl nodes :=
  any_walk isUrl nodes

theorem containsFlaw_eq (nodes : List Node) : containsFlaw nodes = holdsIn isFlaw nodes :=
  any_walk isFlaw nodes

variable {p}

theorem holdsIn_eq_false_iff {nodes : List Node} :
    holdsIn p nodes = false ↔ ∀ node ∈ nodes, holdsAt p node = false := by
  induction nodes with
  | nil => simp [holdsIn]
  | cons node rest ih => simp [holdsIn, ih]

/-! ## Nodes at any depth -/

/-- A node holds a list of nodes: the content of a bracket or a function, a value, or what stands
before the block of a rule and in it. -/
inductive Encloses : Node → List Node → Prop
  | block (bracket content) : Encloses (.block bracket content) content
  | function (name arguments) : Encloses (.function name arguments) arguments
  | value (name value important) : Encloses (.declaration name value important) value
  | selectors (selectors content) : Encloses (.rule selectors content) selectors
  | content (selectors content) : Encloses (.rule selectors content) content
  | subject (name subject content) : Encloses (.atRule name subject content) subject
  | atContent (name subject content) : Encloses (.atRule name subject (some content)) content

/-- A node stands somewhere in a forest: in its list, or in a list that one of the nodes there
holds. -/
inductive Occurs (node : Node) : List Node → Prop
  | here {nodes} (hmem : node ∈ nodes) : Occurs node nodes
  | inside {outer nodes held} (hmem : outer ∈ nodes) (hheld : Encloses outer held)
      (hoccurs : Occurs node held) : Occurs node nodes

namespace Occurs

variable {node outer : Node} {nodes others : List Node}

theorem mono (hoccurs : Occurs node nodes) (hsubset : nodes ⊆ others) : Occurs node others := by
  cases hoccurs with
  | here hmem => exact .here (hsubset hmem)
  | inside hmem hheld hoccurs => exact .inside (hsubset hmem) hheld hoccurs

theorem of_append (hoccurs : Occurs node (nodes ++ others)) :
    Occurs node nodes ∨ Occurs node others := by
  cases hoccurs with
  | here hmem => exact (List.mem_append.mp hmem).imp .here .here
  | inside hmem hheld hoccurs =>
      exact (List.mem_append.mp hmem).imp (.inside · hheld hoccurs) (.inside · hheld hoccurs)

/-- What stands in the lists that a node holds stands in the forest of the node. -/
theorem of_inner (hmem : outer ∈ nodes) (hoccurs : Occurs node outer.inner) :
    Occurs node nodes := by
  cases outer with
  | token t =>
      cases hoccurs with
      | here hnone => cases hnone
      | inside hnone => cases hnone
  | block bracket content => exact .inside hmem (.block ..) hoccurs
  | function name arguments => exact .inside hmem (.function ..) hoccurs
  | declaration name value important => exact .inside hmem (.value ..) hoccurs
  | rule selectors content =>
      exact hoccurs.of_append.elim (.inside hmem (.selectors ..)) (.inside hmem (.content ..))
  | atRule name subject content =>
      rw [inner] at hoccurs
      refine hoccurs.of_append.elim (.inside hmem (.subject ..)) fun hcontent => ?_
      cases content with
      | none =>
          cases hcontent with
          | here hnone => cases hnone
          | inside hnone => cases hnone
      | some content => exact .inside hmem (.atContent ..) hcontent

theorem of_mem_walkStack (hmem : node ∈ walkStack nodes) : Occurs node nodes := by
  induction nodes using walkStack.induct with
  | case1 =>
      rw [walkStack] at hmem
      cases hmem
  | case2 first pending ih =>
      rw [walkStack] at hmem
      rcases List.mem_cons.mp hmem with rfl | hmem
      · exact .here List.mem_cons_self
      · rcases (ih hmem).of_append with hinner | hpending
        · exact of_inner List.mem_cons_self (hinner.mono (List.reverse_perm _).subset)
        · exact hpending.mono (List.subset_cons_self _ _)

/-- The walk meets nothing but what stands in the forest. -/
theorem of_mem_walk (hmem : node ∈ walk nodes) : Occurs node nodes :=
  (of_mem_walkStack hmem).mono (List.reverse_perm _).subset

end Occurs

theorem holdsIn_of_mem {node : Node} {nodes : List Node} (hmem : node ∈ nodes)
    (hholds : holdsAt p node = true) : holdsIn p nodes = true := by
  induction hmem with
  | head rest => rw [holdsIn, hholds, Bool.true_or]
  | tail other _ ih => rw [holdsIn, ih, Bool.or_true]

theorem Encloses.holdsAt {outer : Node} {held : List Node} (hheld : Encloses outer held)
    (hholds : holdsIn p held = true) : holdsAt p outer = true := by
  cases hheld with
  | selectors => rw [Node.holdsAt, hholds, Bool.or_true, Bool.true_or]
  | subject name subject content =>
      rw [holdsAt_eq, inner, holdsIn_append, hholds, Bool.true_or, Bool.or_true]
  | _ => rw [Node.holdsAt, hholds, Bool.or_true]

theorem Occurs.holdsIn {node : Node} {nodes : List Node} (hoccurs : Occurs node nodes)
    (hp : p node = true) : holdsIn p nodes = true := by
  induction hoccurs with
  | here hmem => exact holdsIn_of_mem hmem (by rw [holdsAt_eq, hp, Bool.true_or])
  | inside hmem hheld _ ih => exact holdsIn_of_mem hmem (hheld.holdsAt ih)

/-- The search succeeds exactly if a node with the property stands somewhere in the forest. -/
theorem any_walk_iff {nodes : List Node} :
    (walk nodes).any p = true ↔ ∃ node, Occurs node nodes ∧ p node = true := by
  constructor
  · intro hany
    obtain ⟨node, hmem, hp⟩ := List.any_eq_true.mp hany
    exact ⟨node, .of_mem_walk hmem, hp⟩
  · rintro ⟨node, hoccurs, hp⟩
    rw [any_walk]
    exact hoccurs.holdsIn hp

/-! ## Every node once -/

mutual

/-- A node and all nodes inside it, in the order in which they are written. -/
def preorder : Node → List Node
  | token t => [token t]
  | block bracket content => block bracket content :: preorderAll content
  | function name arguments => function name arguments :: preorderAll arguments
  | declaration name value important => declaration name value important :: preorderAll value
  | rule selectors content =>
    rule selectors content :: (preorderAll selectors ++ preorderAll content)
  | atRule name subject none => atRule name subject none :: preorderAll subject
  | atRule name subject (some content) =>
    atRule name subject (some content) :: (preorderAll subject ++ preorderAll content)

/-- The nodes of a forest, in the order in which they are written. -/
def preorderAll : List Node → List Node
  | [] => []
  | node :: rest => preorder node ++ preorderAll rest

end

theorem preorderAll_eq_flatMap (nodes : List Node) :
    preorderAll nodes = nodes.flatMap preorder := by
  induction nodes with
  | nil => rfl
  | cons node rest ih => rw [preorderAll, ih, List.flatMap_cons]

theorem preorderAll_append (front back : List Node) :
    preorderAll (front ++ back) = preorderAll front ++ preorderAll back := by
  simp only [preorderAll_eq_flatMap, List.flatMap_append]

theorem preorder_eq (node : Node) : preorder node = node :: preorderAll node.inner := by
  cases node with
  | rule selectors content => rw [preorder, inner, preorderAll_append]
  | atRule name subject content =>
      cases content with
      | none => rw [preorder, inner, Option.getD_none, List.append_nil]
      | some content => rw [preorder, inner, Option.getD_some, preorderAll_append]
  | _ => rfl

theorem preorderAll_reverse_perm (nodes : List Node) :
    (preorderAll nodes.reverse).Perm (preorderAll nodes) := by
  rw [preorderAll_eq_flatMap, preorderAll_eq_flatMap]
  exact (List.reverse_perm nodes).flatMap_right preorder

theorem walkStack_perm (pending : List Node) :
    (walkStack pending).Perm (preorderAll pending) := by
  induction pending using walkStack.induct with
  | case1 =>
      rw [walkStack]
      exact .refl _
  | case2 node pending ih =>
      rw [walkStack, preorderAll, preorder_eq, List.cons_append]
      refine .cons node (ih.trans ?_)
      rw [preorderAll_append]
      exact (preorderAll_reverse_perm node.inner).append_right _

/-- The walk meets the nodes of the recursion, each as often as it stands in the forest. -/
theorem walk_perm (nodes : List Node) : (walk nodes).Perm (preorderAll nodes) :=
  (walkStack_perm nodes.reverse).trans (preorderAll_reverse_perm nodes)

end Winnow.Css.Node
