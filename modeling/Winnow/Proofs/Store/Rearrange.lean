import Winnow.Proofs.Store.Links

/-!
# Unwrapped nodes and replaced content

Unwrapping moves the children of a node one after the other to the place before
it and then takes it out; a new text takes the place of all children. Both are
described as a whole: which parents and children they leave, and that nothing
else changes.
-/

namespace Winnow.Store

variable {store : Store}

/-! ## Moving several nodes -/

/-- Items of one parent moved to the place before a child of a target. -/
structure MovedAll (before after : Store) (target : Handle) (items listed : List Handle) :
    Prop where
  linked : after.Linked
  size : after.cells.size = before.cells.size
  label : ∀ other, after.label other = before.label other
  parent : ∀ other, after.parent other =
    if other ∈ items then some target else before.parent other
  children_target : after.children target = listed
  children_other : ∀ other, other ≠ target →
    after.children other = (before.children other).filter (fun child => decide (child ∉ items))

/-- Items that are no children of the target yet are put before a child in their order. -/
theorem Linked.exists_insertAllBefore (items : List Handle) (hlinked : store.Linked)
    {target reference : Handle} {front back : List Handle}
    (hchildren : store.children target = front ++ reference :: back)
    (hfront : reference ∉ front) (hsize : ∀ item ∈ items, item < store.cells.size)
    (hnew : ∀ item ∈ items, item ∉ store.children target) (hnodup : items.Nodup) :
    ∃ after, store.insertAllBefore target items reference = (after, none) ∧
      MovedAll store after target items (front ++ items ++ reference :: back) := by
  induction items generalizing store front with
  | nil =>
      refine ⟨store, rfl, hlinked, rfl, fun _ => rfl, fun _ => by simp, by simpa using hchildren,
        fun other _ => ?_⟩
      simp
  | cons item rest ih =>
      obtain ⟨hitem, hrest⟩ := List.nodup_cons.mp hnodup
      have hmem : reference ∈ store.children target := by
        rw [hchildren]
        exact List.mem_append_right _ List.mem_cons_self
      have hitemNew := hnew item List.mem_cons_self
      have hne : reference ≠ item := fun heq => hitemNew (heq ▸ hmem)
      obtain ⟨middle, hstep, hmiddle, hmoved⟩ :=
        hlinked.exists_insertBefore hmem (hsize item List.mem_cons_self) hne
      have hplaced : middle.children target = (front ++ [item]) ++ reference :: back := by
        rw [hmoved.children_target, List.erase_of_not_mem hitemNew, hchildren,
          placeBefore_append front back hfront]
        simp
      obtain ⟨after, hrun, hall⟩ := ih hmiddle hplaced (by simpa using ⟨hfront, hne⟩)
        (fun other hother => by
          rw [hmoved.size]
          exact hsize other (List.mem_cons_of_mem _ hother))
        (fun other hother => by
          have hother' := hnew other (List.mem_cons_of_mem _ hother)
          rw [hchildren] at hother'
          have hneItem : other ≠ item := fun heq => hitem (heq ▸ hother)
          rw [hplaced]
          simp only [List.mem_append, List.mem_cons, List.not_mem_nil, or_false, not_or] at hother' ⊢
          exact ⟨⟨hother'.1, hneItem⟩, hother'.2⟩)
        hrest
      refine ⟨after, ?_, hall.linked, hall.size.trans hmoved.size,
        fun other => (hall.label other).trans (hmoved.label other), ?_, ?_, ?_⟩
      · unfold insertAllBefore
        rw [hstep]
        exact hrun
      · intro other
        rw [hall.parent, hmoved.parent]
        by_cases hrestMem : other ∈ rest
        · rw [if_pos hrestMem, if_pos (List.mem_cons_of_mem _ hrestMem)]
        · by_cases heq : other = item
          · rw [if_neg hrestMem, if_pos heq, if_pos (heq ▸ List.mem_cons_self)]
          · rw [if_neg hrestMem, if_neg heq, if_neg (by simp [heq, hrestMem])]
      · rw [hall.children_target]
        simp
      · intro other hother
        rw [hall.children_other other hother, hmoved.children_other other hother,
          (hlinked.nodup_children other).erase_eq_filter, List.filter_filter]
        apply List.filter_congr
        intro child _
        by_cases heq : child = item
        · simp [heq]
        · simp [heq]

/-! ## Unwrapping -/

/-- A node whose children have taken its place among the children of its parent. -/
structure Unwrapped (before after : Store) (handle parent : Handle) (front back : List Handle) :
    Prop where
  linked : after.Linked
  size : after.cells.size = before.cells.size
  label : ∀ other, after.label other = before.label other
  parent_self : after.parent handle = none
  parent_child : ∀ child ∈ before.children handle, after.parent child = some parent
  parent_other : ∀ other, other ≠ handle → other ∉ before.children handle →
    after.parent other = before.parent other
  children_self : after.children handle = []
  children_parent : after.children parent = front ++ before.children handle ++ back
  children_other : ∀ other, other ≠ handle → other ≠ parent →
    after.children other = before.children other

theorem Linked.exists_unwrap (hlinked : store.Linked) {handle parent : Handle}
    {front back : List Handle} (hne : parent ≠ handle)
    (hchildren : store.children parent = front ++ handle :: back) :
    ∃ after, store.unwrap handle = (after, none) ∧
      Unwrapped store after handle parent front back := by
  have hmem : handle ∈ store.children parent := by
    rw [hchildren]
    exact List.mem_append_right _ List.mem_cons_self
  have hparent := hlinked.parent_of_mem hmem
  have hnodup := hlinked.nodup_children parent
  rw [hchildren, List.nodup_append, List.nodup_cons] at hnodup
  have hfront : handle ∉ front := fun hin => hnodup.2.2 handle hin handle List.mem_cons_self rfl
  have hself : handle ∉ store.children handle := fun hin => by
    rw [hlinked.parent_of_mem hin] at hparent
    exact hne (Option.some.inj hparent).symm
  have hapart : ∀ child ∈ store.children handle, child ∉ store.children parent :=
    fun child hchild => hlinked.not_mem_children_of_parent_ne (hlinked.parent_of_mem hchild) hne
  obtain ⟨middle, hmoves, hall⟩ := hlinked.exists_insertAllBefore (store.children handle)
    hchildren hfront (fun child hchild => hlinked.lt_size_of_mem hchild) hapart
    (hlinked.nodup_children handle)
  have hmiddleParent : middle.parent handle = some parent := by
    rw [hall.parent, if_neg hself, hparent]
  have hmiddle := hall.linked
  refine ⟨middle.detach handle, ?_, hmiddle.detach handle, ?_, ?_, ?_, ?_, ?_, ?_, ?_, ?_⟩
  · unfold unwrap
    rw [hparent]
    dsimp only
    rw [hmoves]
    dsimp only
    rw [removeChild_eq_detach hmiddleParent]
  · rw [size_detach, hall.size]
  · intro other
    rw [label_detach, hall.label]
  · rw [hmiddle.parent_detach, if_pos rfl]
  · intro child hchild
    have hchildNe : child ≠ handle := fun heq => hself (heq ▸ hchild)
    rw [hmiddle.parent_detach, if_neg hchildNe, hall.parent, if_pos hchild]
  · intro other hother hnot
    rw [hmiddle.parent_detach, if_neg hother, hall.parent, if_neg hnot]
  · rw [hmiddle.children_detach, hall.children_other handle (Ne.symm hne), List.filter_eq_nil_iff.mpr]
    · rfl
    · intro child hchild
      simp [hchild]
  · have hbefore : handle ∉ front ++ store.children handle := by
      rw [List.mem_append, not_or]
      exact ⟨hfront, hself⟩
    rw [hmiddle.children_detach, hall.children_target, List.erase_append_right _ hbefore]
    simp
  · intro other hother hparentNe
    have hnot : handle ∉ store.children other :=
      hlinked.not_mem_children_of_parent_ne hparent hparentNe
    rw [hmiddle.children_detach, hall.children_other other hparentNe, List.filter_eq_self.mpr,
      List.erase_of_not_mem hnot]
    intro child hchild
    have hchildParent := hlinked.parent_of_mem hchild
    simp only [decide_eq_true_eq]
    intro hin
    rw [hlinked.parent_of_mem hin] at hchildParent
    exact hother (Option.some.inj hchildParent).symm

/-! ## Replacing the content by a text -/

/-- A node all of whose children have been removed. -/
structure Emptied (before after : Store) (handle : Handle) : Prop where
  linked : after.Linked
  size : after.cells.size = before.cells.size
  label : ∀ other, after.label other = before.label other
  parent : ∀ other, after.parent other =
    if other ∈ before.children handle then none else before.parent other
  children_self : after.children handle = []
  children_other : ∀ other, other ≠ handle → after.children other = before.children other

/-- Removing the children one after the other removes them all. -/
theorem Linked.emptied (items : List Handle) (hlinked : store.Linked) {handle : Handle}
    (hchildren : store.children handle = items) :
    Emptied store (items.foldl (fun store child => store.removeChild handle child) store)
      handle := by
  induction items generalizing store with
  | nil =>
      exact ⟨hlinked, rfl, fun _ => rfl, fun other => by rw [hchildren]; simp, hchildren,
        fun _ _ => rfl⟩
  | cons item rest ih =>
      have hmem : item ∈ store.children handle := by
        rw [hchildren]
        exact List.mem_cons_self
      have hparent := hlinked.parent_of_mem hmem
      have hleft : (store.detach item).children handle = rest := by
        rw [hlinked.children_detach, hchildren, List.erase_cons_head]
      have hrest := ih (hlinked.detach item) hleft
      rw [List.foldl_cons, removeChild_eq_detach hparent]
      refine ⟨hrest.linked, hrest.size.trans (size_detach store item),
        fun other => (hrest.label other).trans (label_detach store item other), ?_,
        hrest.children_self, ?_⟩
      · intro other
        rw [hrest.parent, hleft, hlinked.parent_detach, hchildren]
        by_cases heq : other = item
        · simp [heq]
        · simp [heq]
      · intro other hother
        rw [hrest.children_other other hother, hlinked.children_detach,
          List.erase_of_not_mem (hlinked.not_mem_children_of_parent_ne hparent hother)]

/-- A node whose children have given way to one new text node. -/
structure Retexted (before after : Store) (handle : Handle) (text : String) : Prop where
  linked : after.Linked
  size : after.cells.size = before.cells.size + 1
  label_new : after.label before.cells.size = .ofText text
  label_old : ∀ other, other < before.cells.size → after.label other = before.label other
  parent_child : ∀ child ∈ before.children handle, after.parent child = none
  parent_other : ∀ other, other < before.cells.size → other ∉ before.children handle →
    after.parent other = before.parent other
  children_self : after.children handle = [before.cells.size]
  children_new : after.children before.cells.size = []
  children_other : ∀ other, other ≠ handle → after.children other = before.children other

theorem Linked.retexted (hlinked : store.Linked) {handle : Handle}
    (hlt : handle < store.cells.size) {text : String} (htext : text ≠ "") :
    Retexted store (store.setText handle text) handle text := by
  have hemptied := hlinked.emptied (store.children handle) rfl
  unfold setText
  dsimp only
  rw [if_neg (by simpa using htext), handle_add]
  generalize (store.children handle).foldl
    (fun store child => store.removeChild handle child) store = emptied at hemptied ⊢
  have hadded := hemptied.linked.add (.ofText text)
  have hnew : emptied.cells.size < (emptied.add (.ofText text)).1.cells.size := by
    rw [size_add]
    exact Nat.lt_succ_self _
  have hhandle : handle < (emptied.add (.ofText text)).1.cells.size := by
    rw [size_add, hemptied.size]
    exact Nat.lt_succ_of_lt hlt
  have hmoved := hadded.moved_append hhandle hnew
  have hlinkedAfter := hadded.append hhandle hnew
  generalize (emptied.add (.ofText text)).1.append handle emptied.cells.size = after
    at hmoved hlinkedAfter ⊢
  have hfresh : ∀ other, emptied.cells.size ∉ emptied.children other := by
    intro other hmem
    exact Nat.lt_irrefl _ (hemptied.linked.lt_size_of_mem hmem)
  have hold : ∀ other, other < store.cells.size → other ≠ emptied.cells.size := by
    intro other hother heq
    rw [heq, hemptied.size] at hother
    exact Nat.lt_irrefl _ hother
  refine ⟨hlinkedAfter, ?_, ?_, ?_, ?_, ?_, ?_, ?_, ?_⟩
  · rw [hmoved.size, size_add, hemptied.size]
  · rw [hmoved.label, label_add, if_pos hemptied.size.symm]
  · intro other hother
    rw [hmoved.label, label_add, if_neg (hold other hother), hemptied.label]
  · intro child hchild
    rw [hmoved.parent, if_neg (hold child (hlinked.lt_size_of_mem hchild)), parent_add,
      hemptied.parent, if_pos hchild]
  · intro other hother hnot
    rw [hmoved.parent, if_neg (hold other hother), parent_add, hemptied.parent, if_neg hnot]
  · rw [hmoved.children_target, children_add, hemptied.children_self, hemptied.size]
    rfl
  · have hne : store.cells.size ≠ handle := fun heq => Nat.lt_irrefl _ (heq ▸ hlt)
    rw [hmoved.children_other _ hne, children_add, hemptied.children_other _ hne,
      children_eq_nil_of_size_le store _ (Nat.le_refl _)]
    rfl
  · intro other hother
    rw [hmoved.children_other _ hother, children_add, List.erase_of_not_mem (hfresh other),
      hemptied.children_other _ hother]

end Winnow.Store
