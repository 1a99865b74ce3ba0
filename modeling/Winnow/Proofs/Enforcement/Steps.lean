import Winnow.Proofs.Enforcement.Loose
import Winnow.Proofs.Enforcement.Rework

/-!
# The edits of a visit in place

What taking out, unwrapping, granting attributes and replacing a text do to a
forest that stands below a host. Each edit is confined to the tree it is made
on. A tree that has been taken out is nowhere connected, unless a document is
among the old content of a node whose text was replaced.
-/

namespace Winnow.Store

open Layout

variable {policy : Policy} {store : Store} {host handle : Handle} {front back : List Handle}
  {forest parts : List Layout}

/-! ## Attributes -/

theorem IsForest.confined_setAttributes (hforest : store.IsForest) (handle : Handle)
    (attributes : Attributes) :
    Confined store (store.setAttributes handle attributes) [handle] none where
  isForest := hforest.setAttributes handle attributes
  size_le := Nat.le_of_eq (size_setAttributes store handle attributes).symm
  label other _ hout :=
    label_setAttributes_of_ne store handle other attributes (by simpa using hout)
  parent other _ _ := parent_setAttributes store handle other attributes
  children other _ _ _ := children_setAttributes store handle other attributes

theorem Placed.setAttributes (hplaced : Placed store host front forest back) (handle : Handle)
    (attributes : Attributes) :
    Placed (store.setAttributes handle attributes) host front forest back where
  isForest := hplaced.isForest.setAttributes handle attributes
  children := by rw [children_setAttributes, hplaced.children]
  holds := hplaced.holds.congr fun other _ =>
    children_setAttributes store handle other attributes

/-! ## Taking out -/

/-- Taking a tree out leaves nothing in its place. -/
theorem Placed.reworked_detach (hplaced : Placed store host front [.node handle parts] back) :
    Reworked policy store (store.detach handle) host front [.node handle parts] [] back := by
  have hlinked := hplaced.isForest.linked
  have hparent : store.parent handle = some host := hplaced.parent _ List.mem_cons_self
  have hfront : handle ∉ front := by
    have hnodup := hlinked.nodup_children host
    rw [hplaced.children, List.append_assoc, List.nodup_append] at hnodup
    exact fun hmem => hnodup.2.2 handle hmem handle List.mem_cons_self rfl
  refine ⟨⟨hplaced.isForest.detach handle, Nat.le_of_eq (size_detach store handle).symm,
    fun other _ _ => label_detach store handle other, ?_, ?_⟩,
    ⟨hplaced.isForest.detach handle, ?_, trivial⟩, fun _ hmem => by cases hmem⟩
  · intro other _ hout
    rw [hlinked.parent_detach, if_neg (fun heq => hout (by simp [heq]))]
  · intro other _ _ hne
    rw [hlinked.children_detach, List.erase_of_not_mem]
    exact hlinked.not_mem_children_of_parent_ne hparent fun heq => hne (congrArg some heq.symm)
  · rw [hlinked.children_detach, hplaced.children, List.append_assoc,
      List.erase_append_right _ hfront]
    simp [Layout.handle]

/-- Below an element that has been taken out nothing is visited. -/
theorem Placed.visitAll_detach (hplaced : Placed store host front [.node handle parts] back)
    (helement : (store.label handle).isElement = true) (tally : Tally) {handles : List Handle}
    (hhandles : ∀ other ∈ handles, other ∈ handlesAll parts) :
    visitAll policy handles (store.detach handle) tally = .ok (store.detach handle, tally) := by
  have hlinked := hplaced.isForest.linked
  have hafter := hplaced.isForest.detach handle
  have hloose : (store.detach handle).isConnected handle = false := by
    have hnone : (store.detach handle).parent handle = none := by
      rw [hlinked.parent_detach, if_pos rfl]
    rw [IsForest.isConnected_of_parent_eq_none hnone, label_detach, beq_eq_false_iff_ne]
    intro hdocument
    rw [Label.isElement, hdocument] at helement
    exact absurd helement (by decide)
  have hbelow : (store.detach handle).HoldsAll [.node handle parts] := by
    refine hplaced.holds.congr fun other hother => ?_
    rw [hlinked.children_detach, List.erase_of_not_mem]
    refine hlinked.not_mem_children_of_parent_ne (hplaced.parent _ List.mem_cons_self) ?_
    rintro rfl
    exact hplaced.host_not_mem hother
  refine visitAll_disconnected (fun other hother => ?_) tally
  refine hafter.isConnected_of_mem hbelow (fun tree htree => ?_) other ?_
  · rw [List.mem_singleton.mp htree]
    exact hloose
  · simp [hhandles other hother]

/-! ## Unwrapping -/

/-- Unwrapping puts the parts of a tree in its place. -/
theorem Placed.exists_unwrap (hplaced : Placed store host front [.node handle parts] back) :
    Placed (store.unwrap handle).1 host front parts back ∧
      Confined store (store.unwrap handle).1 (handlesAll [.node handle parts]) (some host) ∧
      (∀ other, (store.unwrap handle).1.label other = store.label other) := by
  have hparts := hplaced.parts
  have hparent : store.parent handle = some host := hplaced.parent _ List.mem_cons_self
  have hchildren : store.children host = front ++ handle :: back := by
    rw [hplaced.children]
    simp [Layout.handle]
  have hinside : store.children handle = parts.map Layout.handle := by
    rw [hparts.children, List.nil_append, List.append_nil]
  obtain ⟨after, hafter, hunwrapped⟩ := hplaced.isForest.linked.exists_unwrap
    (hplaced.isForest.parent_ne_self hparent) hchildren
  rw [hafter]
  have hforest := hplaced.isForest.unwrapped hparent hunwrapped
  refine ⟨⟨hforest, ?_, ?_⟩, ⟨hforest, Nat.le_of_eq hunwrapped.size.symm,
    fun other _ _ => hunwrapped.label other, ?_, ?_⟩, hunwrapped.label⟩
  · rw [hunwrapped.children_parent, hinside]
  · refine hparts.holds.congr fun other hother => hunwrapped.children_other other ?_ ?_
    · rintro rfl
      exact hparts.host_not_mem hother
    · rintro rfl
      exact hplaced.host_not_mem (by simp [hother])
  · intro other _ hout
    refine hunwrapped.parent_other other (fun heq => hout (by simp [heq])) ?_
    intro hmem
    rw [hinside] at hmem
    obtain ⟨tree, htree, rfl⟩ := List.mem_map.mp hmem
    apply hout
    simp [handle_mem_handlesAll htree]
  · intro other _ hout hne
    exact hunwrapped.children_other other (fun heq => hout (by simp [heq]))
      fun heq => hne (congrArg some heq.symm)

/-! ## Replacing the text -/

/-- Trees that have been cut off from what was above them. -/
structure Freed (store : Store) (forest : List Layout) : Prop where
  isForest : store.IsForest
  parent : ∀ tree ∈ forest, store.parent tree.handle = none
  holds : store.HoldsAll forest
  nodup : (handlesAll forest).Nodup
  lt_size : ∀ handle ∈ handlesAll forest, handle < store.cells.size

/-- A new text takes the place of the parts, which are cut off. -/
structure Sheeted (before after : Store) (handle : Handle) (parts : List Layout)
    (text : String) : Prop where
  confined : Confined before after (handle :: handlesAll parts) none
  freed : Freed after parts
  label : ∀ other ∈ handlesAll parts, after.label other = before.label other
  label_self : after.label handle = before.label handle
  children_self : after.children handle = [before.cells.size]
  children_new : after.children before.cells.size = []
  label_new : after.label before.cells.size = .ofText text
  size : after.cells.size = before.cells.size + 1

theorem Placed.sheeted (hplaced : Placed store handle [] parts []) (hlt : handle < store.cells.size)
    {text : String} (htext : text ≠ "") :
    Sheeted store (store.setText handle text) handle parts text := by
  have hretexted := hplaced.isForest.linked.retexted hlt htext
  have hinside : store.children handle = parts.map Layout.handle := by
    rw [hplaced.children, List.nil_append, List.append_nil]
  have hforest := hplaced.isForest.setText hlt text
  have hle : store.cells.size ≤ (store.setText handle text).cells.size := by
    rw [hretexted.size]
    exact Nat.le_succ _
  refine ⟨⟨hforest, hle, fun other hother _ => hretexted.label_old other hother, ?_, ?_⟩,
    ⟨hforest, ?_, ?_, hplaced.nodup, fun other hother => (hplaced.lt_size other hother).trans_le hle⟩,
    fun other hother => hretexted.label_old other (hplaced.lt_size other hother),
    hretexted.label_old handle hlt, hretexted.children_self, hretexted.children_new,
    hretexted.label_new, hretexted.size⟩
  · intro other hother hout
    refine hretexted.parent_other other hother fun hmem => ?_
    rw [hinside] at hmem
    obtain ⟨tree, htree, rfl⟩ := List.mem_map.mp hmem
    exact hout (List.mem_cons_of_mem _ (handle_mem_handlesAll htree))
  · intro other _ hout _
    exact hretexted.children_other other fun heq => hout (heq ▸ List.mem_cons_self)
  · intro tree htree
    apply hretexted.parent_child
    rw [hinside]
    exact List.mem_map_of_mem htree
  · refine hplaced.holds.congr fun other hother => hretexted.children_other other ?_
    rintro rfl
    exact hplaced.host_not_mem hother

namespace Freed

variable {tree : Layout} {rest : List Layout}

theorem tail (hfreed : Freed store (tree :: rest)) : Freed store rest where
  isForest := hfreed.isForest
  parent other hother := hfreed.parent other (List.mem_cons_of_mem _ hother)
  holds := ((holdsAll_cons _ _).mp hfreed.holds).2
  nodup := by
    have hnodup := hfreed.nodup
    rw [handlesAll_cons, List.nodup_append] at hnodup
    exact hnodup.2.1
  lt_size other hother := hfreed.lt_size other (List.mem_append_right _ hother)

/-- The parts of a freed tree are placed below its top. -/
theorem placed (hfreed : Freed store (.node handle parts :: rest)) :
    Placed store handle [] parts [] where
  isForest := hfreed.isForest
  children := by
    have hholds := hfreed.holds
    rw [holdsAll_cons, holds_node] at hholds
    rw [hholds.1.1, List.nil_append, List.append_nil]
  holds := by
    have hholds := hfreed.holds
    rw [holdsAll_cons, holds_node] at hholds
    exact hholds.1.2

/-- Work that is confined to the first of several freed trees leaves the others as they are. -/
theorem tail_of_confined {middle : Store} (hfreed : Freed store (tree :: rest))
    (hconfined : Confined store middle (handlesAll [tree]) none) :
    Freed middle rest ∧ middle.readAll rest = store.readAll rest ∧
      middle.elementsOf rest = store.elementsOf rest := by
  have hrest := hfreed.tail
  have hout : ∀ handle ∈ handlesAll rest, handle ∉ handlesAll [tree] := by
    intro handle hmem htree
    have hnodup := hfreed.nodup
    rw [handlesAll_cons, List.nodup_append] at hnodup
    rw [handlesAll_cons, handlesAll_nil, List.append_nil] at htree
    exact hnodup.2.2 handle htree handle hmem rfl
  refine ⟨⟨hconfined.isForest, ?_, ?_, hrest.nodup, ?_⟩, hconfined.readAll_eq hrest.lt_size hout,
    hconfined.elementsOf_eq hrest.lt_size hout⟩
  · intro other hother
    have hmem := handle_mem_handlesAll hother
    rw [hconfined.parent _ (hrest.lt_size _ hmem) (hout _ hmem), hrest.parent other hother]
  · exact hconfined.holdsAll hrest.holds hrest.lt_size hout fun _ _ heq => by cases heq
  · exact fun other hother => (hrest.lt_size other hother).trans_le hconfined.size_le

/-- The top of a freed tree is connected if it is a document. -/
theorem isConnected_eq (hfreed : Freed store (tree :: rest)) :
    store.isConnected tree.handle = (store.label tree.handle).isDocument :=
  IsForest.isConnected_of_parent_eq_none (hfreed.parent _ List.mem_cons_self)

end Freed

/-- A node that stays with a new text, whose old content is worked on where it is. -/
theorem Reworked.of_sheet {middle sheeted after : Store} {text : String}
    (hplaced : Placed store host front [.node handle parts] back)
    (hstep : Confined store middle [handle] none)
    (hkeeps : policy.Keeps (store.label handle) (middle.label handle))
    (hsheeted : Sheeted middle sheeted handle parts text)
    (hloose : Confined sheeted after (handlesAll parts) none) :
    Reworked policy store after host front [.node handle parts]
        [.node handle [.node middle.cells.size []]] back ∧
      after.readAll [.node handle [.node middle.cells.size []]] =
        [.node (middle.label handle) [.ofText text]] := by
  have hparts := hplaced.parts
  have hlt : handle < middle.cells.size :=
    (hplaced.lt_size handle (by simp)).trans_le hstep.size_le
  have hnewLt : middle.cells.size < sheeted.cells.size := by
    rw [hsheeted.size]
    exact Nat.lt_succ_self _
  have hnew : middle.cells.size ∉ handlesAll parts := fun hmem =>
    Nat.lt_irrefl _ ((hparts.lt_size _ hmem).trans_le hstep.size_le)
  have hself := hparts.host_not_mem
  have hlabel : after.label handle = middle.label handle := by
    rw [hloose.label handle (hlt.trans hnewLt) hself, hsheeted.label_self]
  have hlabelNew : after.label middle.cells.size = .ofText text := by
    rw [hloose.label _ hnewLt hnew, hsheeted.label_new]
  have hall : Confined store after (handlesAll [.node handle parts]) none := by
    refine ((hstep.widen ?_ ?_).trans (hsheeted.confined.widen ?_ ?_)).trans (hloose.widen ?_ ?_)
    · intro other hmem
      simp [List.mem_singleton.mp hmem]
    · exact fun _ heq => Or.inr heq
    · exact fun other hmem => by simpa using hmem
    · exact fun _ heq => Or.inr heq
    · intro other hmem
      simp [hmem]
    · exact fun _ heq => Or.inr heq
  refine ⟨⟨hall.widen (fun _ hmem => hmem) fun _ heq => (by cases heq),
    ⟨hall.isForest, ?_, ?_⟩, ?_⟩, ?_⟩
  · rw [hall.children host (hplaced.host_lt_size List.mem_cons_self) hplaced.host_not_mem
      (fun heq => by cases heq), hplaced.children]
    rfl
  · refine (holdsAll_cons _ _).mpr ⟨(holds_node _ _).mpr ⟨?_, ?_⟩, trivial⟩
    · rw [hloose.children handle (hlt.trans hnewLt) hself (fun heq => by cases heq),
        hsheeted.children_self]
      rfl
    · refine (holdsAll_cons _ _).mpr ⟨(holds_node _ _).mpr ⟨?_, trivial⟩, trivial⟩
      rw [hloose.children _ hnewLt hnew (fun heq => by cases heq), hsheeted.children_new]
      rfl
  · intro other hmem
    simp only [handlesAll_cons, handles_node, handlesAll_nil, List.append_nil, List.mem_cons,
      List.not_mem_nil, or_false] at hmem
    rcases hmem with rfl | rfl
    · refine Or.inl ⟨by simp, ?_⟩
      rwa [hlabel]
    · refine Or.inr ⟨hstep.size_le, ?_⟩
      rw [hlabelNew]
      exact Label.isElement_ofText text
  · simp only [readAll, read, hlabel, hlabelNew]
    rfl

end Winnow.Store
