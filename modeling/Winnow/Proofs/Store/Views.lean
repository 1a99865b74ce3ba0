import Mathlib.Data.List.Basic
import Winnow.Document.Store

/-!
# What single changes do to a store

A store is read through the label, the parent and the children of its handles.
Each change is described by what it does to these three views and to the number
of nodes. Later proofs use these equations and do not open the changes.
-/

namespace Winnow.Store

variable (store : Store) (handle other : Handle)

/-! ## Reading -/

theorem cell?_update (change : Cell → Cell) :
    (store.update handle change).cell? other =
      if other = handle then (store.cell? other).map change else store.cell? other := by
  unfold update cell?
  rw [Array.getElem?_modify]
  by_cases heq : handle = other
  · subst heq
    simp
  · rw [if_neg heq, if_neg (Ne.symm heq)]

theorem cell?_add (label : Label) :
    (store.add label).1.cell? other =
      if other = store.cells.size then some { label := label } else store.cell? other := by
  unfold add cell?
  rw [Array.getElem?_push]

theorem isSome_cell? : (store.cell? handle).isSome = decide (handle < store.cells.size) := by
  unfold cell?
  by_cases hlt : handle < store.cells.size
  · simp [hlt]
  · simp [hlt]

theorem cell?_eq_none (hsize : store.cells.size ≤ handle) : store.cell? handle = none := by
  unfold cell?
  exact Array.getElem?_eq_none hsize

/-- A node with a parent is in the store. -/
theorem lt_size_of_parent {store : Store} {handle parent : Handle}
    (hparent : store.parent handle = some parent) : handle < store.cells.size := by
  by_contra hge
  unfold Store.parent at hparent
  rw [cell?_eq_none store handle (Nat.le_of_not_lt hge)] at hparent
  simp at hparent

/-- A node with a child is in the store. -/
theorem lt_size_of_mem_children {store : Store} {handle child : Handle}
    (hchild : child ∈ store.children handle) : handle < store.cells.size := by
  by_contra hge
  unfold Store.children at hchild
  rw [cell?_eq_none store handle (Nat.le_of_not_lt hge)] at hchild
  simp at hchild

theorem parent_eq_none_of_size_le (hsize : store.cells.size ≤ handle) :
    store.parent handle = none := by
  unfold Store.parent
  rw [cell?_eq_none store handle hsize]
  rfl

theorem children_eq_nil_of_size_le (hsize : store.cells.size ≤ handle) :
    store.children handle = [] := by
  unfold Store.children
  rw [cell?_eq_none store handle hsize]
  rfl

theorem label_of_size_le (hsize : store.cells.size ≤ handle) :
    store.label handle = .ofText "" := by
  unfold label
  rw [cell?_eq_none store handle hsize]
  rfl

/-- A handle without a node stands for no element. -/
theorem lt_size_of_isElement {store : Store} {handle : Handle}
    (helement : (store.label handle).isElement = true) : handle < store.cells.size := by
  by_contra hge
  rw [label_of_size_le store handle (Nat.le_of_not_lt hge)] at helement
  revert helement
  decide

/-! ## A change that keeps a view -/

section Update

variable {store : Store} {handle other : Handle} {change : Cell → Cell}

theorem size_update : (store.update handle change).cells.size = store.cells.size := by
  simp [update]

theorem label_update (hkeep : ∀ cell, (change cell).label = cell.label) :
    (store.update handle change).label other = store.label other := by
  unfold label
  rw [cell?_update]
  split
  · simp [Option.map_map, Function.comp_def, hkeep]
  · rfl

theorem parent_update (hkeep : ∀ cell, (change cell).parent = cell.parent) :
    (store.update handle change).parent other = store.parent other := by
  unfold Store.parent
  rw [cell?_update]
  split
  · simp only [Option.bind_map, Function.comp_def, hkeep]
  · rfl

theorem children_update (hkeep : ∀ cell, (change cell).children = cell.children) :
    (store.update handle change).children other = store.children other := by
  unfold Store.children
  rw [cell?_update]
  split
  · simp [Option.map_map, Function.comp_def, hkeep]
  · rfl

/-- What a change makes of a node that is in the store. -/
theorem exists_cell?_update (change : Cell → Cell) (hlt : handle < store.cells.size) :
    ∃ cell, store.cell? handle = some cell ∧
      (store.update handle change).cell? handle = some (change cell) := by
  obtain ⟨cell, hcell⟩ := Option.isSome_iff_exists.mp
    ((isSome_cell? store handle).trans (decide_eq_true hlt))
  refine ⟨cell, hcell, ?_⟩
  rw [cell?_update, if_pos rfl, hcell]
  rfl

end Update

/-! ## A new parent -/

section SetParent

variable (parent : Option Handle)

@[simp] theorem size_setParent :
    (store.setParent handle parent).cells.size = store.cells.size := size_update

@[simp] theorem label_setParent :
    (store.setParent handle parent).label other = store.label other :=
  label_update fun _ => rfl

@[simp] theorem children_setParent :
    (store.setParent handle parent).children other = store.children other :=
  children_update fun _ => rfl

theorem parent_setParent :
    (store.setParent handle parent).parent other =
      if other = handle ∧ other < store.cells.size then parent else store.parent other := by
  split
  next hself =>
    obtain ⟨rfl, hlt⟩ := hself
    obtain ⟨cell, -, hcell⟩ := exists_cell?_update
      (fun cell => { cell with parent := parent }) hlt
    unfold Store.parent setParent
    rw [hcell]
    rfl
  next hnot =>
    unfold Store.parent setParent
    rw [cell?_update]
    split
    next heq =>
      rw [cell?_eq_none store other (Nat.le_of_not_lt fun hlt => hnot ⟨heq, hlt⟩)]
      rfl
    next => rfl

end SetParent

/-! ## New children -/

section SetChildren

variable (below : List Handle)

@[simp] theorem size_setChildren :
    (store.setChildren handle below).cells.size = store.cells.size := size_update

@[simp] theorem label_setChildren :
    (store.setChildren handle below).label other = store.label other :=
  label_update fun _ => rfl

@[simp] theorem parent_setChildren :
    (store.setChildren handle below).parent other = store.parent other :=
  parent_update fun _ => rfl

theorem children_setChildren :
    (store.setChildren handle below).children other =
      if other = handle ∧ other < store.cells.size then below else store.children other := by
  split
  next hself =>
    obtain ⟨rfl, hlt⟩ := hself
    obtain ⟨cell, -, hcell⟩ := exists_cell?_update
      (fun cell => { cell with children := below }) hlt
    unfold Store.children setChildren
    rw [hcell]
    rfl
  next hnot =>
    unfold Store.children setChildren
    rw [cell?_update]
    split
    next heq =>
      rw [cell?_eq_none store other (Nat.le_of_not_lt fun hlt => hnot ⟨heq, hlt⟩)]
      rfl
    next => rfl

end SetChildren

/-! ## New attributes -/

section SetAttributes

variable (attributes : Attributes)

@[simp] theorem size_setAttributes :
    (store.setAttributes handle attributes).cells.size = store.cells.size := size_update

@[simp] theorem parent_setAttributes :
    (store.setAttributes handle attributes).parent other = store.parent other :=
  parent_update fun _ => rfl

@[simp] theorem children_setAttributes :
    (store.setAttributes handle attributes).children other = store.children other :=
  children_update fun _ => rfl

theorem label_setAttributes_of_ne (hne : other ≠ handle) :
    (store.setAttributes handle attributes).label other = store.label other := by
  unfold label setAttributes
  rw [cell?_update, if_neg hne]

theorem label_setAttributes_self (hlt : handle < store.cells.size) :
    (store.setAttributes handle attributes).label handle =
      { store.label handle with attributes := attributes } := by
  obtain ⟨cell, hcell, hchanged⟩ := exists_cell?_update
    (fun cell => { cell with label := { cell.label with attributes } }) hlt
  unfold label setAttributes
  rw [hchanged, hcell]
  rfl

theorem label_setAttributes_of_not
    (hnot : ¬ (other = handle ∧ other < store.cells.size)) :
    (store.setAttributes handle attributes).label other = store.label other := by
  by_cases heq : other = handle
  · have hle : store.cells.size ≤ other := Nat.le_of_not_lt fun hlt => hnot ⟨heq, hlt⟩
    unfold label
    rw [cell?_eq_none _ other hle, cell?_eq_none _ other (by rwa [size_setAttributes])]
  · exact label_setAttributes_of_ne _ _ _ attributes heq

theorem tag_setAttributes :
    ((store.setAttributes handle attributes).label other).tag = (store.label other).tag := by
  by_cases hself : other = handle ∧ other < store.cells.size
  · obtain ⟨rfl, hlt⟩ := hself
    rw [label_setAttributes_self _ _ _ hlt]
  · rw [label_setAttributes_of_not _ _ _ _ hself]

theorem space_setAttributes :
    ((store.setAttributes handle attributes).label other).space = (store.label other).space := by
  by_cases hself : other = handle ∧ other < store.cells.size
  · obtain ⟨rfl, hlt⟩ := hself
    rw [label_setAttributes_self _ _ _ hlt]
  · rw [label_setAttributes_of_not _ _ _ _ hself]

/-- Giving a node the attributes it has changes nothing. -/
theorem setAttributes_self :
    store.setAttributes handle (store.label handle).attributes = store := by
  have hcells : (store.setAttributes handle (store.label handle).attributes).cells =
      store.cells := by
    refine Array.ext_getElem? fun other => ?_
    change (store.setAttributes handle _).cell? other = store.cell? other
    rw [setAttributes, cell?_update]
    split
    next heq =>
      subst heq
      unfold label
      cases store.cell? other with
      | none => rfl
      | some cell => rfl
    next => rfl
  exact congrArg Store.mk hcells

end SetAttributes

/-! ## A new node -/

section Add

variable (label : Label)

@[simp] theorem size_add : (store.add label).1.cells.size = store.cells.size + 1 := by
  simp [add]

@[simp] theorem handle_add : (store.add label).2 = store.cells.size := rfl

@[simp] theorem parent_add : (store.add label).1.parent other = store.parent other := by
  unfold Store.parent
  rw [cell?_add]
  split
  next heq =>
    rw [cell?_eq_none store other (Nat.le_of_eq heq.symm)]
    rfl
  next => rfl

@[simp] theorem children_add : (store.add label).1.children other = store.children other := by
  unfold Store.children
  rw [cell?_add]
  split
  next heq =>
    rw [cell?_eq_none store other (Nat.le_of_eq heq.symm)]
    rfl
  next => rfl

theorem label_add : (store.add label).1.label other =
    if other = store.cells.size then label else store.label other := by
  unfold Store.label
  rw [cell?_add]
  split
  · rfl
  · rfl

end Add

end Winnow.Store
