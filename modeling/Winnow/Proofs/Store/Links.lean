import Winnow.Proofs.Store.Views

/-!
# Links in step

In a linked store the two records of a link agree: a node is among the children
of another exactly when it names that other one as its parent, and it stands
there once. Every edit keeps a store linked. For each edit there is one
description of the parents and children that it leaves.
-/

namespace Winnow.Store

/-- The two records of every link agree, and no child is listed twice. -/
structure Linked (store : Store) : Prop where
  mem_children_iff : ∀ parent child, child ∈ store.children parent ↔
    store.parent child = some parent
  nodup_children : ∀ handle, (store.children handle).Nodup

variable {store : Store}

namespace Linked

theorem parent_of_mem (hlinked : store.Linked) {parent child : Handle}
    (hchild : child ∈ store.children parent) : store.parent child = some parent :=
  (hlinked.mem_children_iff parent child).mp hchild

theorem mem_of_parent (hlinked : store.Linked) {parent child : Handle}
    (hparent : store.parent child = some parent) : child ∈ store.children parent :=
  (hlinked.mem_children_iff parent child).mpr hparent

theorem lt_size_of_mem (hlinked : store.Linked) {parent child : Handle}
    (hchild : child ∈ store.children parent) : child < store.cells.size :=
  lt_size_of_parent (hlinked.parent_of_mem hchild)

theorem lt_size_of_parent_eq (hlinked : store.Linked) {parent child : Handle}
    (hparent : store.parent child = some parent) : parent < store.cells.size :=
  lt_size_of_mem_children (hlinked.mem_of_parent hparent)

/-- A node that is a child elsewhere is no child here. -/
theorem not_mem_children_of_parent_ne (hlinked : store.Linked) {parent other child : Handle}
    (hparent : store.parent child = some parent) (hne : other ≠ parent) :
    child ∉ store.children other := by
  intro hmem
  rw [hlinked.parent_of_mem hmem] at hparent
  exact hne (Option.some.inj hparent)

/-- Where a child stands among its siblings. -/
theorem exists_children_split (hlinked : store.Linked) {parent child : Handle}
    (hparent : store.parent child = some parent) :
    ∃ front back, store.children parent = front ++ child :: back ∧
      child ∉ front ∧ child ∉ back := by
  obtain ⟨front, back, hsplit⟩ := List.append_of_mem (hlinked.mem_of_parent hparent)
  have hnodup := hlinked.nodup_children parent
  rw [hsplit, List.nodup_append, List.nodup_cons] at hnodup
  refine ⟨front, back, hsplit, ?_, hnodup.2.1.1⟩
  intro hfront
  exact hnodup.2.2 child hfront child List.mem_cons_self rfl

end Linked

/-! ## Taking nodes out -/

section Detach

variable (store) (parent child handle other : Handle)

@[simp] theorem size_removeChild :
    (store.removeChild parent child).cells.size = store.cells.size := by
  unfold removeChild
  split
  · simp
  · rfl

@[simp] theorem label_removeChild :
    (store.removeChild parent child).label other = store.label other := by
  unfold removeChild
  split
  · simp
  · rfl

theorem children_removeChild : (store.removeChild parent child).children other =
    if other = parent then (store.children parent).erase child else store.children other := by
  unfold removeChild
  split
  next hcontains =>
    have hlt := lt_size_of_mem_children (List.contains_iff_mem.mp hcontains)
    rw [children_setParent, children_setChildren]
    by_cases heq : other = parent
    · rw [if_pos ⟨heq, heq ▸ hlt⟩, if_pos heq]
    · rw [if_neg (fun hboth => heq hboth.1), if_neg heq]
  next hcontains =>
    have hnot : child ∉ store.children parent := fun hmem =>
      hcontains (List.contains_iff_mem.mpr hmem)
    rw [List.erase_of_not_mem hnot]
    split
    next heq => rw [heq]
    next => rfl

theorem parent_removeChild : (store.removeChild parent child).parent other =
    if other = child ∧ child ∈ store.children parent then none else store.parent other := by
  unfold removeChild
  split
  next hcontains =>
    have hmem := List.contains_iff_mem.mp hcontains
    rw [parent_setParent, parent_setChildren, size_setChildren]
    by_cases heq : other = child
    · rw [if_pos (c := other = child ∧ child ∈ _) ⟨heq, hmem⟩]
      split
      next => rfl
      next hnot =>
        exact parent_eq_none_of_size_le store other
          (Nat.le_of_not_lt fun hlt => hnot ⟨heq, hlt⟩)
    · rw [if_neg (fun hboth => heq hboth.1), if_neg (fun hboth => heq hboth.1)]
  next hcontains =>
    rw [if_neg (fun hboth => hcontains (List.contains_iff_mem.mpr hboth.2))]

@[simp] theorem size_detach : (store.detach handle).cells.size = store.cells.size := by
  unfold detach
  split
  · simp
  · rfl

@[simp] theorem label_detach : (store.detach handle).label other = store.label other := by
  unfold detach
  split
  · simp
  · rfl

end Detach

/-! ## Labels of moved nodes -/

section Labels

variable (store) (parent child other : Handle)

@[simp] theorem label_append : (store.append parent child).label other = store.label other := by
  simp [append]

@[simp] theorem size_append : (store.append parent child).cells.size = store.cells.size := by
  simp [append]

@[simp] theorem size_insertBefore (reference : Handle) :
    (store.insertBefore parent child reference).1.cells.size = store.cells.size := by
  unfold insertBefore
  dsimp only
  split
  · split
    · simp
    · simp
  · rfl

@[simp] theorem label_insertBefore (reference : Handle) :
    (store.insertBefore parent child reference).1.label other = store.label other := by
  unfold insertBefore
  dsimp only
  split
  · split
    · simp
    · simp
  · rfl

end Labels

namespace Linked

variable (hlinked : store.Linked)
include hlinked

theorem children_detach (handle other : Handle) :
    (store.detach handle).children other = (store.children other).erase handle := by
  unfold detach
  split
  next parent hparent =>
    rw [children_removeChild]
    split
    next heq => rw [heq]
    next hne =>
      rw [List.erase_of_not_mem (hlinked.not_mem_children_of_parent_ne hparent hne)]
  next hparent =>
    have hnot : handle ∉ store.children other := by
      intro hmem
      rw [hlinked.parent_of_mem hmem] at hparent
      cases hparent
    rw [List.erase_of_not_mem hnot]

theorem parent_detach (handle other : Handle) :
    (store.detach handle).parent other =
      if other = handle then none else store.parent other := by
  unfold detach
  split
  next parent hparent =>
    rw [parent_removeChild]
    have hmem := hlinked.mem_of_parent hparent
    by_cases heq : other = handle
    · rw [if_pos ⟨heq, hmem⟩, if_pos heq]
    · rw [if_neg (fun hboth => heq hboth.1), if_neg heq]
  next hparent =>
    split
    next heq => rw [heq, hparent]
    next => rfl

/-- Taking a node out keeps the links in step. -/
theorem detach (handle : Handle) : (store.detach handle).Linked where
  mem_children_iff parent child := by
    rw [hlinked.children_detach, hlinked.parent_detach]
    by_cases heq : child = handle
    · subst heq
      rw [if_pos rfl]
      exact iff_of_false (hlinked.nodup_children parent).not_mem_erase (by simp)
    · rw [if_neg heq, List.mem_erase_of_ne heq, hlinked.mem_children_iff]
  nodup_children other := by
    rw [hlinked.children_detach]
    exact (hlinked.nodup_children other).erase handle

end Linked

/-- Removing a child is taking it out. -/
theorem removeChild_eq_detach {parent child : Handle}
    (hparent : store.parent child = some parent) :
    store.removeChild parent child = store.detach child := by
  unfold detach
  rw [hparent]

/-! ## Attributes and new nodes -/

theorem Linked.setAttributes (hlinked : store.Linked) (handle : Handle)
    (attributes : Attributes) : (store.setAttributes handle attributes).Linked where
  mem_children_iff parent child := by
    rw [children_setAttributes, parent_setAttributes, hlinked.mem_children_iff]
  nodup_children other := by
    rw [children_setAttributes]
    exact hlinked.nodup_children other

theorem Linked.add (hlinked : store.Linked) (label : Label) : (store.add label).1.Linked where
  mem_children_iff parent child := by
    rw [children_add, parent_add, hlinked.mem_children_iff]
  nodup_children other := by
    rw [children_add]
    exact hlinked.nodup_children other

/-! ## Putting nodes in -/

section PlaceBefore

variable {item reference : Handle}

theorem placeBefore_append (front back : List Handle) (hfront : reference ∉ front) :
    placeBefore item reference (front ++ reference :: back) =
      front ++ item :: reference :: back := by
  induction front with
  | nil => simp [placeBefore]
  | cons head rest ih =>
      rw [List.mem_cons, not_or] at hfront
      rw [List.cons_append, placeBefore, if_neg (Ne.symm hfront.1), ih hfront.2]
      rfl

theorem mem_placeBefore {handles : List Handle} (hmem : reference ∈ handles) (other : Handle) :
    other ∈ placeBefore item reference handles ↔ other = item ∨ other ∈ handles := by
  induction handles with
  | nil => simp at hmem
  | cons head rest ih =>
      unfold placeBefore
      split
      next => rw [List.mem_cons]
      next hne =>
        have hrest : reference ∈ rest := (List.mem_cons.mp hmem).resolve_left (Ne.symm hne)
        rw [List.mem_cons, ih hrest, List.mem_cons]
        exact or_left_comm

theorem nodup_placeBefore {handles : List Handle} (hnodup : handles.Nodup)
    (hitem : item ∉ handles) : (placeBefore item reference handles).Nodup := by
  induction handles with
  | nil => exact List.nodup_nil
  | cons head rest ih =>
      obtain ⟨hhead, hrest⟩ := List.nodup_cons.mp hnodup
      rw [List.mem_cons, not_or] at hitem
      unfold placeBefore
      split
      next =>
        refine List.nodup_cons.mpr ⟨?_, hnodup⟩
        rw [List.mem_cons, not_or]
        exact hitem
      next =>
        refine List.nodup_cons.mpr ⟨?_, ih hrest hitem.2⟩
        by_cases hmem : reference ∈ rest
        · rw [mem_placeBefore hmem, not_or]
          exact ⟨Ne.symm hitem.1, hhead⟩
        · rw [show placeBefore item reference rest = rest from ?_]
          · exact hhead
          · clear ih hhead hitem hrest hnodup
            induction rest with
            | nil => rfl
            | cons next rest ih =>
                rw [List.mem_cons, not_or] at hmem
                rw [placeBefore, if_neg (Ne.symm hmem.1), ih hmem.2]

end PlaceBefore

/-- An item moved to a target that then lists the given children. -/
structure Moved (before after : Store) (target item : Handle) (listed : List Handle) :
    Prop where
  size : after.cells.size = before.cells.size
  label : ∀ other, after.label other = before.label other
  parent : ∀ other, after.parent other =
    if other = item then some target else before.parent other
  children_target : after.children target = listed
  children_other : ∀ other, other ≠ target →
    after.children other = (before.children other).erase item

theorem Moved.linked {before after : Store} {target item : Handle} {listed : List Handle}
    (hmoved : Moved before after target item listed) (hlinked : before.Linked)
    (hmem : ∀ other, other ∈ listed ↔ other = item ∨ other ∈ before.children target)
    (hnodup : listed.Nodup) : after.Linked where
  mem_children_iff above child := by
    rw [hmoved.parent]
    by_cases heq : above = target
    · subst heq
      rw [hmoved.children_target, hmem, hlinked.mem_children_iff]
      by_cases hitem : child = item
      · simp [hitem]
      · simp [hitem]
    · rw [hmoved.children_other above heq]
      by_cases hitem : child = item
      · subst hitem
        rw [if_pos rfl]
        refine iff_of_false (hlinked.nodup_children above).not_mem_erase ?_
        intro hsome
        exact heq (Option.some.inj hsome).symm
      · rw [if_neg hitem, List.mem_erase_of_ne hitem, hlinked.mem_children_iff]
  nodup_children other := by
    by_cases heq : other = target
    · rw [heq, hmoved.children_target]
      exact hnodup
    · rw [hmoved.children_other other heq]
      exact (hlinked.nodup_children other).erase item

/-- Recording a detached node as a child of another one. -/
theorem Linked.moved_setChildren (hlinked : store.Linked) {target item : Handle}
    (htarget : target < store.cells.size) (hitem : item < store.cells.size)
    (listed : List Handle) :
    Moved store (((store.detach item).setParent item (some target)).setChildren target listed)
      target item listed where
  size := by simp
  label other := by simp
  parent other := by
    rw [parent_setChildren, parent_setParent, hlinked.parent_detach, size_detach]
    by_cases heq : other = item
    · rw [if_pos ⟨heq, heq ▸ hitem⟩, if_pos heq]
    · rw [if_neg (fun hboth => heq hboth.1), if_neg heq, if_neg heq]
  children_target := by
    rw [children_setChildren, if_pos ⟨rfl, by simpa using htarget⟩]
  children_other other hne := by
    rw [children_setChildren, if_neg (fun hboth => hne hboth.1), children_setParent,
      hlinked.children_detach]

/-- A node moved to the end. -/
theorem Linked.moved_append (hlinked : store.Linked) {target item : Handle}
    (htarget : target < store.cells.size) (hitem : item < store.cells.size) :
    Moved store (store.append target item) target item
      ((store.children target).erase item ++ [item]) := by
  have hmoved := hlinked.moved_setChildren htarget hitem
    ((store.children target).erase item ++ [item])
  unfold append
  dsimp only
  rw [children_setParent, hlinked.children_detach]
  exact hmoved

theorem Linked.append (hlinked : store.Linked) {target item : Handle}
    (htarget : target < store.cells.size) (hitem : item < store.cells.size) :
    (store.append target item).Linked := by
  have hnodup := hlinked.nodup_children target
  refine (hlinked.moved_append htarget hitem).linked hlinked ?_ ?_
  · intro other
    rw [List.mem_append, List.mem_singleton, hnodup.mem_erase_iff]
    by_cases heq : other = item
    · simp [heq]
    · simp [heq]
  · rw [List.nodup_append]
    refine ⟨hnodup.erase item, by simp, ?_⟩
    intro other hother last hlast heq
    rw [List.mem_singleton.mp hlast] at heq
    rw [heq] at hother
    exact hnodup.not_mem_erase hother

theorem insertBefore_of_not_mem {target item reference : Handle}
    (hreference : reference ∉ store.children target) :
    store.insertBefore target item reference = (store, none) := by
  unfold insertBefore
  rw [if_neg (fun hcontains => hreference (List.contains_iff_mem.mp hcontains))]

/-- Putting a node before itself takes it out and then fails. -/
theorem Linked.insertBefore_self (hlinked : store.Linked) {target item : Handle}
    (hitem : item ∈ store.children target) :
    store.insertBefore target item item = (store.detach item, some .notAChild) := by
  have hnot : item ∉ (store.detach item).children target := by
    rw [hlinked.children_detach]
    exact (hlinked.nodup_children target).not_mem_erase
  unfold insertBefore
  rw [if_pos (List.contains_iff_mem.mpr hitem)]
  dsimp only
  rw [if_neg (fun hcontains => hnot (List.contains_iff_mem.mp hcontains))]

/-- A node moved to the place before a child. -/
theorem Linked.exists_insertBefore (hlinked : store.Linked) {target item reference : Handle}
    (hreference : reference ∈ store.children target) (hitem : item < store.cells.size)
    (hne : reference ≠ item) :
    ∃ after, store.insertBefore target item reference = (after, none) ∧ after.Linked ∧
      Moved store after target item
        (placeBefore item reference ((store.children target).erase item)) := by
  have hnodup := hlinked.nodup_children target
  have hleft : reference ∈ (store.children target).erase item :=
    (List.mem_erase_of_ne hne).mpr hreference
  have hmoved := hlinked.moved_setChildren (lt_size_of_mem_children hreference) hitem
    (placeBefore item reference ((store.children target).erase item))
  refine ⟨_, ?_, ?_, hmoved⟩
  · unfold insertBefore
    rw [if_pos (List.contains_iff_mem.mpr hreference)]
    dsimp only
    rw [hlinked.children_detach, if_pos (List.contains_iff_mem.mpr hleft), children_setParent,
      hlinked.children_detach]
  · refine hmoved.linked hlinked ?_ (nodup_placeBefore (hnodup.erase item) hnodup.not_mem_erase)
    intro other
    rw [mem_placeBefore hleft, hnodup.mem_erase_iff]
    by_cases heq : other = item
    · simp [heq]
    · simp [heq]

end Winnow.Store
