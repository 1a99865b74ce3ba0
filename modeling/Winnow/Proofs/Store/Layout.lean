import Winnow.Proofs.Store.Forest

/-!
# How nodes lie in a store

A layout is a tree of handles. A store holds a layout if each of its nodes has
exactly the children laid out below it. What lies below a node of a forest is
such a layout without repetitions, and through it the walk of the store and the
tree it stands for are plain recursions.
-/

namespace Winnow

/-- Handles arranged as a tree. -/
inductive Layout where
  | node (handle : Handle) (parts : List Layout)

namespace Layout

/-- The handle at the top. -/
def handle : Layout → Handle
  | node handle _ => handle

/-- What lies directly below the top. -/
def parts : Layout → List Layout
  | node _ parts => parts

mutual

/-- All handles in document order. -/
def handles : Layout → List Handle
  | node handle parts => handle :: handlesAll parts

/-- The handles of several layouts in document order. -/
def handlesAll : List Layout → List Handle
  | [] => []
  | tree :: rest => handles tree ++ handlesAll rest

end

/-- Induction over a list of layouts, from what lies below the first and from the rest. -/
@[elab_as_elim]
theorem forest_induction {motive : List Layout → Prop} (nil : motive [])
    (cons : ∀ handle parts rest, motive parts → motive rest →
      motive (node handle parts :: rest)) : ∀ forest, motive forest
  | [] => nil
  | node handle parts :: rest =>
      cons handle parts rest (forest_induction nil cons parts) (forest_induction nil cons rest)

@[simp] theorem handlesAll_nil : handlesAll [] = [] := rfl

@[simp] theorem handlesAll_cons (tree : Layout) (rest : List Layout) :
    handlesAll (tree :: rest) = handles tree ++ handlesAll rest := rfl

@[simp] theorem handles_node (handle : Handle) (parts : List Layout) :
    handles (node handle parts) = handle :: handlesAll parts := rfl

theorem handlesAll_append (front back : List Layout) :
    handlesAll (front ++ back) = handlesAll front ++ handlesAll back := by
  induction front with
  | nil => rfl
  | cons tree rest ih => rw [List.cons_append, handlesAll_cons, handlesAll_cons, ih,
      List.append_assoc]

theorem handle_mem_handles (tree : Layout) : tree.handle ∈ tree.handles := by
  cases tree with
  | node handle parts => exact List.mem_cons_self

theorem handle_mem_handlesAll {tree : Layout} {forest : List Layout} (htree : tree ∈ forest) :
    tree.handle ∈ handlesAll forest := by
  induction forest with
  | nil => cases htree
  | cons first rest ih =>
      rw [handlesAll_cons, List.mem_append]
      rcases List.mem_cons.mp htree with rfl | hrest
      · exact Or.inl (handle_mem_handles tree)
      · exact Or.inr (ih hrest)

end Layout

namespace Store

open Layout

variable {store : Store}

mutual

/-- The nodes of a layout have the children laid out below them. -/
def Holds (store : Store) : Layout → Prop
  | .node handle parts => store.children handle = parts.map Layout.handle ∧ HoldsAll store parts

/-- A store holds each of several layouts. -/
def HoldsAll (store : Store) : List Layout → Prop
  | [] => True
  | tree :: rest => Holds store tree ∧ HoldsAll store rest

end

mutual

/-- The tree that a layout stands for. -/
def read (store : Store) : Layout → Tree
  | .node handle parts => .node (store.label handle) (readAll store parts)

/-- The trees that layouts stand for. -/
def readAll (store : Store) : List Layout → List Tree
  | [] => []
  | tree :: rest => read store tree :: readAll store rest

end

theorem holds_node (handle : Handle) (parts : List Layout) :
    store.Holds (.node handle parts) ↔
      store.children handle = parts.map Layout.handle ∧ store.HoldsAll parts := by
  rw [Holds]

theorem holdsAll_cons (tree : Layout) (rest : List Layout) :
    store.HoldsAll (tree :: rest) ↔ store.Holds tree ∧ store.HoldsAll rest := by
  rw [HoldsAll]

theorem holdsAll_append (front back : List Layout) :
    store.HoldsAll (front ++ back) ↔ store.HoldsAll front ∧ store.HoldsAll back := by
  induction front with
  | nil => simp [HoldsAll]
  | cons tree rest ih => rw [List.cons_append, holdsAll_cons, holdsAll_cons, ih, and_assoc]

theorem readAll_append (front back : List Layout) :
    store.readAll (front ++ back) = store.readAll front ++ store.readAll back := by
  induction front with
  | nil => rfl
  | cons tree rest ih => rw [List.cons_append, readAll, readAll, ih, List.cons_append]

/-- A layout depends on the children of its own nodes only. -/
theorem HoldsAll.congr {after : Store} {forest : List Layout} (hholds : store.HoldsAll forest)
    (hchildren : ∀ handle ∈ handlesAll forest, after.children handle = store.children handle) :
    after.HoldsAll forest := by
  induction forest using forest_induction with
  | nil => trivial
  | cons handle parts rest ihParts ihRest =>
      rw [holdsAll_cons, holds_node] at hholds ⊢
      refine ⟨⟨?_, ihParts hholds.1.2 ?_⟩, ihRest hholds.2 ?_⟩
      · rw [hchildren handle (by simp), hholds.1.1]
      · exact fun other hother => hchildren other (by simp [hother])
      · exact fun other hother => hchildren other (by simp [hother])

/-- What is read depends on the labels of the nodes of a layout only. -/
theorem readAll_congr {after : Store} {forest : List Layout}
    (hlabel : ∀ handle ∈ handlesAll forest, after.label handle = store.label handle) :
    after.readAll forest = store.readAll forest := by
  induction forest using forest_induction with
  | nil => rfl
  | cons handle parts rest ihParts ihRest =>
      rw [readAll, readAll, read, read, hlabel handle (by simp)]
      rw [ihParts fun other hother => hlabel other (by simp [hother]),
        ihRest fun other hother => hlabel other (by simp [hother])]

/-! ## Nodes below a node -/

/-- Every node of a layout is one of its tops or below one of them. -/
theorem Linked.eq_or_above_of_mem (hlinked : store.Linked) {forest : List Layout}
    (hholds : store.HoldsAll forest) {handle : Handle} (hmem : handle ∈ handlesAll forest) :
    ∃ tree ∈ forest, handle = tree.handle ∨ store.Above handle tree.handle := by
  induction forest using forest_induction with
  | nil => cases hmem
  | cons top parts rest ihParts ihRest =>
      rw [holdsAll_cons, holds_node] at hholds
      rw [handlesAll_cons, handles_node, List.mem_append, List.mem_cons] at hmem
      rcases hmem with (rfl | hparts) | hrest
      · exact ⟨_, List.mem_cons_self, Or.inl rfl⟩
      · obtain ⟨child, hchild, hin⟩ := ihParts hholds.1.2 hparts
        have hlink : store.parent child.handle = some top := by
          apply hlinked.parent_of_mem
          rw [hholds.1.1]
          exact List.mem_map_of_mem hchild
        refine ⟨_, List.mem_cons_self, Or.inr ?_⟩
        rcases hin with rfl | habove
        · exact Above.of_parent hlink
        · exact habove.trans (Above.of_parent hlink)
      · obtain ⟨tree, htree, hin⟩ := ihRest hholds.2 hrest
        exact ⟨tree, List.mem_cons_of_mem _ htree, hin⟩

namespace IsForest

variable (hforest : store.IsForest)
include hforest

/-- Two nodes with a common parent have no common descendant. -/
theorem eq_of_common {first second parent lower : Handle}
    (hfirst : store.parent first = some parent) (hsecond : store.parent second = some parent)
    (hlowerFirst : lower = first ∨ store.Above lower first)
    (hlowerSecond : lower = second ∨ store.Above lower second) : first = second := by
  have hsame : ∀ {low upper : Handle}, store.parent low = some parent →
      store.parent upper = some parent → ¬ store.Above low upper := by
    intro low upper hlow hupper habove
    rcases habove.eq_or_above_parent hlow with rfl | hparent
    · exact hforest.parent_ne_self hupper rfl
    · exact hforest.acyclic parent (hparent.trans (Above.of_parent hupper))
  have hunique : Relator.RightUnique fun child parent => store.parent child = some parent := by
    intro child one other hone hother
    exact Option.some.inj (hone.symm.trans hother)
  have hreach : ∀ {upper : Handle}, lower = upper ∨ store.Above lower upper →
      Relation.ReflTransGen (fun child parent => store.parent child = some parent) lower upper := by
    intro upper hupper
    rcases hupper with rfl | habove
    · exact Relation.ReflTransGen.refl
    · exact habove.to_reflTransGen
  rcases Relation.ReflTransGen.total_of_right_unique hunique (hreach hlowerFirst)
    (hreach hlowerSecond) with hup | hup
  · rcases Relation.reflTransGen_iff_eq_or_transGen.mp hup with heq | habove
    · exact heq.symm
    · exact (hsame hfirst hsecond habove).elim
  · rcases Relation.reflTransGen_iff_eq_or_transGen.mp hup with heq | habove
    · exact heq
    · exact (hsame hsecond hfirst habove).elim

/-- A parent does not lie below its children. -/
theorem parent_not_mem {forest : List Layout} {parent : Handle} (hholds : store.HoldsAll forest)
    (hparent : ∀ tree ∈ forest, store.parent tree.handle = some parent) :
    parent ∉ handlesAll forest := by
  intro hmem
  obtain ⟨tree, htree, heq | habove⟩ := hforest.linked.eq_or_above_of_mem hholds hmem
  · exact hforest.parent_ne_self (hparent tree htree) heq
  · exact hforest.acyclic parent (habove.trans (Above.of_parent (hparent tree htree)))

/-- The children that a layout shows have the node above them as their parent. -/
theorem parent_of_parts {handle : Handle} {parts : List Layout}
    (hchildren : store.children handle = parts.map Layout.handle) :
    ∀ tree ∈ parts, store.parent tree.handle = some handle := by
  intro tree htree
  apply hforest.linked.parent_of_mem
  rw [hchildren]
  exact List.mem_map_of_mem htree

/-- The layouts below one node hold no node twice. -/
theorem nodup_handlesAll {forest : List Layout} {parent : Handle}
    (hholds : store.HoldsAll forest)
    (hparent : ∀ tree ∈ forest, store.parent tree.handle = some parent)
    (hdistinct : (forest.map Layout.handle).Nodup) : (handlesAll forest).Nodup := by
  induction forest using forest_induction generalizing parent with
  | nil => exact List.nodup_nil
  | cons top parts rest ihParts ihRest =>
      rw [holdsAll_cons, holds_node] at hholds
      obtain ⟨⟨hchildren, hparts⟩, hrest⟩ := hholds
      rw [List.map_cons, List.nodup_cons] at hdistinct
      have hpartsParent := hforest.parent_of_parts hchildren
      have htop := hparent _ List.mem_cons_self
      rw [handlesAll_cons, handles_node, List.nodup_append, List.nodup_cons]
      refine ⟨⟨hforest.parent_not_mem hparts hpartsParent, ihParts hparts hpartsParent ?_⟩,
        ihRest hrest (fun tree htree => hparent tree (List.mem_cons_of_mem _ htree))
          hdistinct.2, ?_⟩
      · rw [← hchildren]
        exact hforest.linked.nodup_children top
      · intro lower hlower other hother heq
        subst heq
        have hfirst : store.HoldsAll [.node top parts] :=
          (holdsAll_cons _ _).mpr ⟨(holds_node _ _).mpr ⟨hchildren, hparts⟩, trivial⟩
        obtain ⟨first, hmem, hunder⟩ := hforest.linked.eq_or_above_of_mem hfirst
          (by rwa [handlesAll_cons, handles_node, handlesAll_nil, List.append_nil])
        rw [List.mem_singleton.mp hmem] at hunder
        obtain ⟨tree, htree, hunderTree⟩ := hforest.linked.eq_or_above_of_mem hrest hother
        have hsame := hforest.eq_of_common htop (hparent tree (List.mem_cons_of_mem _ htree))
          hunder hunderTree
        apply hdistinct.1
        rw [show (Layout.node top parts).handle = tree.handle from hsame]
        exact List.mem_map_of_mem htree

theorem lt_size_of_mem_handlesAll {forest : List Layout} {parent : Handle}
    (hholds : store.HoldsAll forest)
    (hparent : ∀ tree ∈ forest, store.parent tree.handle = some parent) :
    ∀ handle ∈ handlesAll forest, handle < store.cells.size := by
  intro handle hmem
  obtain ⟨tree, htree, rfl | habove⟩ := hforest.linked.eq_or_above_of_mem hholds hmem
  · exact lt_size_of_parent (hparent tree htree)
  · obtain ⟨next, hnext, -⟩ := Relation.TransGen.head'_iff.mp habove
    exact lt_size_of_parent hnext

/-! ## A layout for every node -/

omit hforest in
theorem exists_layouts (handles : List Handle)
    (htrees : ∀ handle ∈ handles, ∃ tree : Layout, tree.handle = handle ∧ store.Holds tree) :
    ∃ parts, handles = parts.map Layout.handle ∧ store.HoldsAll parts := by
  induction handles with
  | nil => exact ⟨[], rfl, trivial⟩
  | cons handle rest ih =>
      obtain ⟨parts, hrest, hholds⟩ :=
        ih fun other hother => htrees other (List.mem_cons_of_mem _ hother)
      obtain ⟨tree, rfl, htree⟩ := htrees handle List.mem_cons_self
      exact ⟨tree :: parts, by rw [List.map_cons, hrest],
        (holdsAll_cons _ _).mpr ⟨htree, hholds⟩⟩

/-- What lies below a node of a forest is a layout. -/
theorem exists_parts (handle : Handle) :
    ∃ parts, store.children handle = parts.map Layout.handle ∧ store.HoldsAll parts := by
  induction handle using hforest.below_induction with
  | step handle ih =>
      refine exists_layouts _ fun child hmem => ?_
      obtain ⟨parts, hparts⟩ := ih child hmem
      exact ⟨.node child parts, rfl, (holds_node _ _).mpr hparts⟩

end IsForest

/-! ## Walks and trees -/

/-- The elements of layouts in document order. -/
def elementsOf (store : Store) (forest : List Layout) : List Handle :=
  (handlesAll forest).filter fun handle => (store.label handle).isElement

theorem elementsOf_cons (tree : Layout) (rest : List Layout) :
    store.elementsOf (tree :: rest) = store.elementsOf [tree] ++ store.elementsOf rest := by
  simp [elementsOf]

theorem elementsOf_node_of_isElement {handle : Handle}
    (helement : (store.label handle).isElement = true) (parts : List Layout) :
    store.elementsOf [.node handle parts] = handle :: store.elementsOf parts := by
  simp [elementsOf, helement]

theorem elementsOf_node_of_not_isElement {handle : Handle}
    (hother : (store.label handle).isElement = false) (parts : List Layout) :
    store.elementsOf [.node handle parts] = store.elementsOf parts := by
  simp [elementsOf, hother]

/-- A walk with enough steps meets the elements of the pending layouts in document order. -/
theorem walk_eq_elementsOf (fuel : Nat) (forest : List Layout) (hholds : store.HoldsAll forest)
    (hfuel : (handlesAll forest).length ≤ fuel) :
    store.walk fuel (forest.map Layout.handle) = store.elementsOf forest := by
  unfold elementsOf
  induction fuel generalizing forest with
  | zero =>
      rw [List.length_eq_zero_iff.mp (Nat.le_zero.mp hfuel)]
      rfl
  | succ fuel ih =>
      cases forest with
      | nil => rfl
      | cons tree rest =>
          obtain ⟨handle, parts⟩ := tree
          rw [holdsAll_cons, holds_node] at hholds
          have hlength : (handlesAll (parts ++ rest)).length ≤ fuel := by
            rw [handlesAll_cons, handles_node, List.cons_append, List.length_cons,
              ← handlesAll_append] at hfuel
            omega
          have hrest := ih (parts ++ rest)
            ((holdsAll_append _ _).mpr ⟨hholds.1.2, hholds.2⟩) hlength
          rw [List.map_append, ← hholds.1.1] at hrest
          rw [List.map_cons]
          unfold walk
          dsimp only [Layout.handle]
          rw [hrest, handlesAll_cons, handles_node, List.cons_append, List.filter_cons,
            ← handlesAll_append]
          rfl

/-- The tree below a node, looked at deep enough, is read off its layout. -/
theorem treeAt_eq_read (depth : Nat) (tree : Layout) (hholds : store.Holds tree)
    (hdepth : tree.handles.length ≤ depth + 1) :
    store.treeAt depth tree.handle = store.read tree := by
  induction depth generalizing tree with
  | zero =>
      obtain ⟨handle, parts⟩ := tree
      rw [handles_node, List.length_cons] at hdepth
      cases parts with
      | nil => rfl
      | cons first rest =>
          obtain ⟨child, parts⟩ := first
          simp at hdepth
  | succ depth ih =>
      obtain ⟨handle, parts⟩ := tree
      rw [holds_node] at hholds
      rw [handles_node, List.length_cons] at hdepth
      unfold treeAt
      dsimp only [Layout.handle]
      rw [hholds.1, read]
      congr 1
      have hparts := hholds.2
      clear hholds
      induction parts with
      | nil => rfl
      | cons first rest ihParts =>
          rw [handlesAll_cons, List.length_append] at hdepth
          rw [holdsAll_cons] at hparts
          rw [List.map_cons, List.map_cons, readAll, ih first hparts.1 (by omega),
            ihParts (by omega) hparts.2]

/-- Distinct handles of a store are at most as many as its nodes. -/
theorem length_le_size {handles : List Handle} (hnodup : handles.Nodup)
    (hlt : ∀ handle ∈ handles, handle < store.cells.size) :
    handles.length ≤ store.cells.size := by
  have hsub : handles ⊆ List.range store.cells.size :=
    fun handle hmem => List.mem_range.mpr (hlt handle hmem)
  simpa using (hnodup.subperm hsub).length_le

namespace IsForest

variable (hforest : store.IsForest)
include hforest

/-- A node is not met again below itself, and nothing there is met twice. -/
theorem nodup_handles {handle : Handle} {parts : List Layout}
    (hchildren : store.children handle = parts.map Layout.handle)
    (hholds : store.HoldsAll parts) : (handle :: handlesAll parts).Nodup := by
  have hparent := hforest.parent_of_parts hchildren
  refine List.nodup_cons.mpr ⟨hforest.parent_not_mem hholds hparent,
    hforest.nodup_handlesAll hholds hparent ?_⟩
  rw [← hchildren]
  exact hforest.linked.nodup_children handle

/-- The layouts below a node have no more nodes than the store. -/
theorem length_handlesAll_le {handle : Handle} {parts : List Layout}
    (hchildren : store.children handle = parts.map Layout.handle)
    (hholds : store.HoldsAll parts) (hlt : handle < store.cells.size) :
    (handlesAll parts).length + 1 ≤ store.cells.size := by
  refine length_le_size (hforest.nodup_handles hchildren hholds) fun other hother => ?_
  rcases List.mem_cons.mp hother with rfl | hparts
  · exact hlt
  · exact hforest.lt_size_of_mem_handlesAll hholds (hforest.parent_of_parts hchildren) other hparts

/-- The tree below a node of a forest. -/
theorem toTree_eq {handle : Handle} {parts : List Layout}
    (hchildren : store.children handle = parts.map Layout.handle)
    (hholds : store.HoldsAll parts) (hlt : handle < store.cells.size) :
    store.toTree handle = .node (store.label handle) (store.readAll parts) := by
  have hlength := hforest.length_handlesAll_le hchildren hholds hlt
  refine treeAt_eq_read _ (.node handle parts) ((holds_node _ _).mpr ⟨hchildren, hholds⟩) ?_
  rw [handles_node, List.length_cons]
  omega

/-- The elements at and below a node of a forest. -/
theorem elements_eq {handle : Handle} {parts : List Layout}
    (hchildren : store.children handle = parts.map Layout.handle)
    (hholds : store.HoldsAll parts) (hlt : handle < store.cells.size) :
    store.elements handle = store.elementsOf [.node handle parts] := by
  have hlength := hforest.length_handlesAll_le hchildren hholds hlt
  refine walk_eq_elementsOf _ [.node handle parts] ?_ ?_
  · exact (holdsAll_cons _ _).mpr ⟨(holds_node _ _).mpr ⟨hchildren, hholds⟩, trivial⟩
  · simpa using hlength

end IsForest

/-! ## Views by recursion -/

theorem HoldsAll.of_mem {forest : List Layout} (hholds : store.HoldsAll forest) {tree : Layout}
    (htree : tree ∈ forest) : store.Holds tree := by
  induction htree with
  | head rest => exact ((holdsAll_cons _ _).mp hholds).1
  | tail first _ ih => exact ih ((holdsAll_cons _ _).mp hholds).2

theorem readAll_eq_map (forest : List Layout) : store.readAll forest = forest.map store.read := by
  induction forest with
  | nil => rfl
  | cons tree rest ih => rw [readAll, ih, List.map_cons]

theorem elementsOf_eq_flatMap (forest : List Layout) :
    store.elementsOf forest = forest.flatMap fun tree => store.elementsOf [tree] := by
  induction forest with
  | nil => rfl
  | cons tree rest ih => rw [elementsOf_cons, ih, List.flatMap_cons]

/-- A node without children is all that is below it. -/
theorem toTree_of_children_eq_nil {handle : Handle} (hchildren : store.children handle = []) :
    store.toTree handle = .node (store.label handle) [] := by
  unfold toTree
  cases store.cells.size with
  | zero => rfl
  | succ depth => rw [treeAt, hchildren, List.map_nil]

theorem elements_of_size_le {handle : Handle} (hsize : store.cells.size ≤ handle) :
    store.elements handle = [] := by
  have hlabel : (store.label handle).isElement = false :=
    Bool.eq_false_iff.mpr fun helement => Nat.not_lt.mpr hsize (lt_size_of_isElement helement)
  unfold elements
  cases store.cells.size with
  | zero => rfl
  | succ fuel =>
      rw [walk, children_eq_nil_of_size_le store handle hsize, hlabel, List.nil_append]
      cases fuel with
      | zero => rfl
      | succ fuel => rfl

namespace IsForest

variable (hforest : store.IsForest)
include hforest

/-- The tree below a node has the trees below the children below its top. -/
theorem toTree_node (handle : Handle) : store.toTree handle =
    .node (store.label handle) ((store.children handle).map store.toTree) := by
  obtain ⟨parts, hchildren, hholds⟩ := hforest.exists_parts handle
  have hbelow : ∀ tree ∈ parts, store.read tree = store.toTree tree.handle := by
    rintro ⟨child, below⟩ htree
    have hchild := (holds_node _ _).mp (hholds.of_mem htree)
    refine (hforest.toTree_eq hchild.1 hchild.2 ?_).symm
    exact lt_size_of_parent (hforest.parent_of_parts hchildren _ htree)
  cases parts with
  | nil => rw [toTree_of_children_eq_nil hchildren, hchildren, List.map_nil, List.map_nil]
  | cons first rest =>
      have hfirst : first.handle ∈ store.children handle := by
        rw [hchildren]
        exact List.mem_map_of_mem List.mem_cons_self
      have hlt := lt_size_of_mem_children hfirst
      rw [hforest.toTree_eq hchildren hholds hlt, readAll_eq_map, hchildren, List.map_map]
      exact congrArg _ (List.map_congr_left hbelow)

/-- The elements at and below a node are the node, if it is one, and those at and below the
children in their order. -/
theorem elements_node (handle : Handle) : store.elements handle =
    (if (store.label handle).isElement then [handle] else []) ++
      (store.children handle).flatMap store.elements := by
  obtain ⟨parts, hchildren, hholds⟩ := hforest.exists_parts handle
  by_cases hlt : handle < store.cells.size
  · have hbelow : ∀ tree ∈ parts, store.elementsOf [tree] = store.elements tree.handle := by
      rintro ⟨child, below⟩ htree
      have hchild := (holds_node _ _).mp (hholds.of_mem htree)
      refine (hforest.elements_eq hchild.1 hchild.2 ?_).symm
      exact lt_size_of_parent (hforest.parent_of_parts hchildren _ htree)
    have hparts : store.elementsOf parts = (store.children handle).flatMap store.elements := by
      rw [elementsOf_eq_flatMap, hchildren, List.flatMap_map]
      exact List.flatMap_congr hbelow
    rw [hforest.elements_eq hchildren hholds hlt]
    cases helement : (store.label handle).isElement with
    | true => rw [elementsOf_node_of_isElement helement, hparts, if_pos rfl, List.singleton_append]
    | false =>
        rw [elementsOf_node_of_not_isElement helement, hparts, if_neg Bool.false_ne_true,
          List.nil_append]
  · have hsize := Nat.le_of_not_lt hlt
    rw [elements_of_size_le hsize, children_eq_nil_of_size_le store handle hsize,
      if_neg fun helement => hlt (lt_size_of_isElement helement)]
    rfl

/-- No element is met twice. -/
theorem nodup_elements (handle : Handle) : (store.elements handle).Nodup := by
  by_cases hlt : handle < store.cells.size
  · obtain ⟨parts, hchildren, hholds⟩ := hforest.exists_parts handle
    rw [hforest.elements_eq hchildren hholds hlt]
    refine List.Nodup.filter _ ?_
    rw [handlesAll_cons, handles_node, handlesAll_nil, List.append_nil]
    exact hforest.nodup_handles hchildren hholds
  · rw [elements_of_size_le (Nat.le_of_not_lt hlt)]
    exact List.nodup_nil

end IsForest

end Store

end Winnow
