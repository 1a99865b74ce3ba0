import Winnow.Proofs.Store.Layout

/-!
# Stores of trees

A store made from a tree is a forest, and the tree is what its first handle
stands for. So a statement about every forest holds of every tree.
-/

namespace Winnow

namespace Tree

/-- Induction over a list of trees, from what lies below the first and from the rest. -/
@[elab_as_elim]
theorem forest_induction {motive : List Tree → Prop} (nil : motive [])
    (cons : ∀ label children rest, motive children → motive rest →
      motive (node label children :: rest)) : ∀ forest, motive forest
  | [] => nil
  | node label children :: rest =>
      cons label children rest (forest_induction nil cons children)
        (forest_induction nil cons rest)

end Tree

namespace Store

open Layout

/-- New nodes have been laid out at the end of the children of a target. -/
structure Grown (before after : Store) (target : Handle) (forest : List Layout) : Prop where
  isForest : after.IsForest
  size_le : before.cells.size ≤ after.cells.size
  label_old : ∀ other, other < before.cells.size → after.label other = before.label other
  parent_old : ∀ other, other < before.cells.size → after.parent other = before.parent other
  children_target : after.children target =
    before.children target ++ forest.map Layout.handle
  children_old : ∀ other, other < before.cells.size → other ≠ target →
    after.children other = before.children other
  holds : after.HoldsAll forest
  fresh : ∀ handle ∈ handlesAll forest,
    before.cells.size ≤ handle ∧ handle < after.cells.size

theorem Grown.nil {store : Store} (hforest : store.IsForest) (target : Handle) :
    Grown store store target [] where
  isForest := hforest
  size_le := Nat.le_refl _
  label_old _ _ := rfl
  parent_old _ _ := rfl
  children_target := by simp
  children_old _ _ _ := rfl
  holds := trivial
  fresh handle hmem := by cases hmem

/-- A new node under a target. -/
theorem IsForest.grown_leaf {store : Store} (hforest : store.IsForest) {target : Handle}
    (htarget : target < store.cells.size) (label : Label) :
    Grown store ((store.add label).1.append target store.cells.size) target
      [.node store.cells.size []] ∧
    ((store.add label).1.append target store.cells.size).label store.cells.size = label ∧
    ((store.add label).1.append target store.cells.size).cells.size = store.cells.size + 1 := by
  have hadded := hforest.add label
  have hnew : store.cells.size < (store.add label).1.cells.size := by
    rw [size_add]
    exact Nat.lt_succ_self _
  have hold : target < (store.add label).1.cells.size := htarget.trans hnew
  have hleaf : (store.add label).1.children store.cells.size = [] := by
    rw [children_add]
    exact children_eq_nil_of_size_le _ _ (Nat.le_refl _)
  have hne : target ≠ store.cells.size := Nat.ne_of_lt htarget
  have hmoved := hadded.linked.moved_append hold hnew
  have hnowhere : ∀ other, store.cells.size ∉ store.children other := fun other hmem =>
    Nat.lt_irrefl _ (hforest.linked.lt_size_of_mem hmem)
  have hchildren : ∀ other, other ≠ target →
      ((store.add label).1.append target store.cells.size).children other =
        store.children other := by
    intro other hother
    rw [hmoved.children_other other hother, children_add, List.erase_of_not_mem (hnowhere other)]
  refine ⟨⟨hadded.append_leaf hold hnew hleaf hne, ?_, ?_, ?_, ?_, ?_, ?_, ?_⟩, ?_, ?_⟩
  · rw [hmoved.size]
    exact Nat.le_of_lt hnew
  · intro other hother
    rw [hmoved.label, label_add, if_neg (Nat.ne_of_lt hother)]
  · intro other hother
    rw [hmoved.parent, if_neg (Nat.ne_of_lt hother), parent_add]
  · rw [hmoved.children_target, children_add, List.erase_of_not_mem (hnowhere target)]
    rfl
  · exact fun other _ hother => hchildren other hother
  · refine (holdsAll_cons _ _).mpr ⟨(holds_node _ _).mpr ⟨?_, trivial⟩, trivial⟩
    rw [hchildren _ (Ne.symm hne), children_eq_nil_of_size_le _ _ (Nat.le_refl _)]
    rfl
  · intro handle hmem
    simp only [handlesAll_cons, handles_node, handlesAll_nil, List.append_nil,
      List.mem_singleton] at hmem
    rw [hmem, hmoved.size]
    exact ⟨Nat.le_refl _, hnew⟩
  · rw [hmoved.label, label_add, if_pos rfl]
  · rw [hmoved.size, size_add]

/-- Adding trees below a node lays them out at the end of its children. -/
theorem IsForest.exists_grown (trees : List Tree) {store : Store} (hforest : store.IsForest)
    {target : Handle} (htarget : target < store.cells.size) :
    ∃ forest, Grown store (store.addTrees target trees) target forest ∧
      (store.addTrees target trees).readAll forest = trees := by
  induction trees using Tree.forest_induction generalizing store target with
  | nil =>
      rw [addTrees]
      exact ⟨[], Grown.nil hforest target, rfl⟩
  | cons label children rest ihChildren ihRest =>
      rw [addTrees, addTree]
      dsimp only
      rw [handle_add]
      obtain ⟨hleaf, hlabel, hsize⟩ := hforest.grown_leaf htarget label
      generalize (store.add label).1.append target store.cells.size = first
        at hleaf hlabel hsize ⊢
      have hfirst : store.cells.size < first.cells.size := by
        rw [hsize]
        exact Nat.lt_succ_self _
      obtain ⟨inner, hinner, hinnerRead⟩ := ihChildren hleaf.isForest hfirst
      generalize first.addTrees store.cells.size children = second at hinner hinnerRead ⊢
      have hsecond : target < second.cells.size :=
        htarget.trans_le (hleaf.size_le.trans hinner.size_le)
      obtain ⟨outer, houter, houterRead⟩ := ihRest hinner.isForest hsecond
      generalize second.addTrees target rest = third at houter houterRead ⊢
      have htargetNe : target ≠ store.cells.size := Nat.ne_of_lt htarget
      have htargetFirst := htarget.trans hfirst
      have hnewSecond := hfirst.trans_le hinner.size_le
      have hinnerNe : ∀ handle ∈ handlesAll inner, handle ≠ target := fun handle hmem heq =>
        Nat.lt_irrefl _ (htargetFirst.trans_le (heq ▸ (hinner.fresh handle hmem).1))
      have hinnerHolds : third.HoldsAll inner := hinner.holds.congr fun handle hmem =>
        houter.children_old handle (hinner.fresh handle hmem).2 (hinnerNe handle hmem)
      have hnewChildren : third.children store.cells.size = inner.map Layout.handle := by
        have hempty : first.children store.cells.size = [] := hleaf.holds.1.1
        rw [houter.children_old _ hnewSecond (Ne.symm htargetNe), hinner.children_target, hempty,
          List.nil_append]
      have hnewLabel : third.label store.cells.size = label := by
        rw [houter.label_old _ hnewSecond, hinner.label_old _ hfirst, hlabel]
      refine ⟨.node store.cells.size inner :: outer, ⟨houter.isForest, ?_, ?_, ?_, ?_, ?_, ?_, ?_⟩,
        ?_⟩
      · exact hleaf.size_le.trans (hinner.size_le.trans houter.size_le)
      · intro other hother
        have hotherFirst := hother.trans hfirst
        rw [houter.label_old _ (hotherFirst.trans_le hinner.size_le),
          hinner.label_old _ hotherFirst, hleaf.label_old _ hother]
      · intro other hother
        have hotherFirst := hother.trans hfirst
        rw [houter.parent_old _ (hotherFirst.trans_le hinner.size_le),
          hinner.parent_old _ hotherFirst, hleaf.parent_old _ hother]
      · rw [houter.children_target, hinner.children_old _ htargetFirst htargetNe,
          hleaf.children_target]
        simp [Layout.handle]
      · intro other hother hne
        have hotherFirst := hother.trans hfirst
        rw [houter.children_old _ (hotherFirst.trans_le hinner.size_le) hne,
          hinner.children_old _ hotherFirst (Nat.ne_of_lt hother),
          hleaf.children_old _ hother hne]
      · exact (holdsAll_cons _ _).mpr
          ⟨(holds_node _ _).mpr ⟨hnewChildren, hinnerHolds⟩, houter.holds⟩
      · intro handle hmem
        rw [handlesAll_cons, handles_node, List.mem_append, List.mem_cons] at hmem
        rcases hmem with (rfl | hmem) | hmem
        · exact ⟨Nat.le_refl _, hnewSecond.trans_le houter.size_le⟩
        · obtain ⟨hlow, hhigh⟩ := hinner.fresh handle hmem
          exact ⟨(Nat.le_of_lt hfirst).trans hlow, hhigh.trans_le houter.size_le⟩
        · obtain ⟨hlow, hhigh⟩ := houter.fresh handle hmem
          exact ⟨(Nat.le_of_lt hnewSecond).trans hlow, hhigh⟩
      · have hinnerLabels : third.readAll inner = second.readAll inner :=
          readAll_congr fun handle hmem => houter.label_old handle (hinner.fresh handle hmem).2
        rw [readAll, read, hnewLabel, hinnerLabels, hinnerRead, houterRead]

/-- A store with one node. -/
theorem isForest_single (label : Label) : (Store.add {} label).1.IsForest := by
  have hempty : (({} : Store).IsForest) := by
    refine ⟨⟨?_, ?_⟩, ?_⟩
    · intro parent child
      exact iff_of_false List.not_mem_nil (by simp [Store.parent, cell?])
    · exact fun _ => List.nodup_nil
    · intro handle habove
      obtain ⟨next, hnext, -⟩ := Relation.TransGen.head'_iff.mp habove
      simp [Store.parent, cell?] at hnext
  exact hempty.add label

/-- What a store made from a tree is. -/
theorem exists_ofTree (label : Label) (children : List Tree) :
    (ofTree (.node label children)).IsForest ∧
      (ofTree (.node label children)).parent 0 = none ∧
      (ofTree (.node label children)).label 0 = label ∧
      (ofTree (.node label children)).toTree 0 = .node label children := by
  have hsingle := isForest_single label
  have hsize : 0 < (Store.add {} label).1.cells.size := by
    rw [size_add]
    exact Nat.succ_pos _
  obtain ⟨forest, hgrown, hread⟩ := hsingle.exists_grown children hsize
  unfold ofTree
  dsimp only
  generalize (Store.add {} label).1.addTrees 0 children = store at hgrown hread ⊢
  have hlabel : store.label 0 = label := hgrown.label_old 0 hsize
  have hchildren : store.children 0 = forest.map Layout.handle := hgrown.children_target
  refine ⟨hgrown.isForest, hgrown.parent_old 0 hsize, hlabel, ?_⟩
  rw [hgrown.isForest.toTree_eq hchildren hgrown.holds (hsize.trans_le hgrown.size_le), hlabel,
    hread]

theorem isForest_ofTree (tree : Tree) : (ofTree tree).IsForest := by
  obtain ⟨label, children⟩ := tree
  exact (exists_ofTree label children).1

theorem parent_ofTree (tree : Tree) : (ofTree tree).parent 0 = none := by
  obtain ⟨label, children⟩ := tree
  exact (exists_ofTree label children).2.1

theorem label_ofTree (tree : Tree) : (ofTree tree).label 0 = tree.label := by
  obtain ⟨label, children⟩ := tree
  exact (exists_ofTree label children).2.2.1

theorem toTree_ofTree (tree : Tree) : (ofTree tree).toTree 0 = tree := by
  obtain ⟨label, children⟩ := tree
  exact (exists_ofTree label children).2.2.2

end Store

end Winnow
