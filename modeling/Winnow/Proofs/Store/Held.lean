import Winnow.Proofs.Store.Grounded

/-!
# Children that stay

An edit moves one node. Of the other nodes every list of children holds the same ones in the same
order, whichever of them one looks at. So the root of a document stays where it is, and in the
root its head and its body, as long as none of these is moved.
-/

namespace Winnow

/-- The elements that stand in the root of every document. Where frame sets may be read it is the
head alone, as one of them may take the place of the body. -/
def partNames (frames : Bool) : List String := if frames then ["head"] else ["head", "body"]

theorem partNames_subset (frames : Bool) : partNames frames ⊆ ["head", "body"] := by
  cases frames with
  | true => decide
  | false => decide

namespace Store

section Lists

variable {held : Handle → Bool} {item : Handle} (hitem : held item = false) (handles : List Handle)
include hitem

theorem filter_erase : (handles.erase item).filter held = handles.filter held := by
  induction handles with
  | nil => rfl
  | cons handle rest ih =>
      rw [List.erase_cons]
      split
      next heq =>
        obtain rfl := beq_iff_eq.mp heq
        rw [List.filter_cons_of_neg (by simp [hitem])]
      next => rw [List.filter_cons, List.filter_cons, ih]

theorem filter_placeBefore (reference : Handle) :
    (placeBefore item reference handles).filter held = handles.filter held := by
  induction handles with
  | nil => rfl
  | cons handle rest ih =>
      rw [placeBefore]
      split
      next => rw [List.filter_cons_of_neg (by simp [hitem])]
      next => rw [List.filter_cons, List.filter_cons, ih]

end Lists

section Edits

variable (store : Store) {held : Handle → Bool} {child : Handle} (hchild : held child = false)
  (parent other : Handle)
include hchild

theorem held_removeChild : ((store.removeChild parent child).children other).filter held =
    (store.children other).filter held := by
  rw [children_removeChild]
  split
  next heq => rw [filter_erase hchild, heq]
  next => rfl

theorem held_detach :
    ((store.detach child).children other).filter held = (store.children other).filter held := by
  unfold detach
  split
  · exact held_removeChild store hchild _ other
  · rfl

theorem held_append : ((store.append parent child).children other).filter held =
    (store.children other).filter held := by
  unfold append
  rw [children_setChildren]
  split
  next hparent =>
    rw [List.filter_append, List.filter_cons_of_neg (by simp [hchild]), List.filter_nil,
      List.append_nil, children_setParent, held_detach store hchild, hparent.1]
  next => rw [children_setParent, held_detach store hchild]

theorem held_insertBefore (reference : Handle) :
    ((store.insertBefore parent child reference).1.children other).filter held =
      (store.children other).filter held := by
  unfold insertBefore
  dsimp only
  split
  next =>
    split
    next =>
      rw [children_setChildren]
      split
      next hparent =>
        rw [filter_placeBefore hchild, children_setParent, held_detach store hchild, hparent.1]
      next => rw [children_setParent, held_detach store hchild]
    next => exact held_detach store hchild other
  next => rfl

end Edits

/-- Are only nodes that there are listed as children? -/
def Listed (store : Store) : Prop :=
  ∀ parent, ∀ child ∈ store.children parent, child < store.cells.size

namespace Listed

variable {store : Store} (hlisted : store.Listed)
include hlisted

theorem of_held {after : Store} (hsize : store.cells.size ≤ after.cells.size)
    (hchildren : ∀ parent,
      (after.children parent).filter (fun child => decide (after.cells.size ≤ child)) =
        (store.children parent).filter fun child => decide (after.cells.size ≤ child)) :
    after.Listed := by
  intro parent child hmem
  by_contra hge
  have hheld : child ∈ (store.children parent).filter
      fun child => decide (after.cells.size ≤ child) := by
    rw [← hchildren, List.mem_filter]
    exact ⟨hmem, decide_eq_true (Nat.le_of_not_lt hge)⟩
  have hlt := hlisted parent child (List.mem_filter.mp hheld).1
  exact hge (Nat.lt_of_lt_of_le hlt hsize)

theorem add (label : Label) : (store.add label).1.Listed :=
  hlisted.of_held (by simp) fun parent => by rw [children_add]

theorem setAttributes (handle : Handle) (attributes : Attributes) :
    (store.setAttributes handle attributes).Listed :=
  hlisted.of_held (by simp) fun parent => by rw [children_setAttributes]

theorem append {child : Handle} (hchild : child < store.cells.size) (parent : Handle) :
    (store.append parent child).Listed :=
  hlisted.of_held (by simp) fun other => held_append store (by simpa using hchild) parent other

theorem insertBefore {child : Handle} (hchild : child < store.cells.size)
    (parent reference : Handle) : (store.insertBefore parent child reference).1.Listed := by
  refine hlisted.of_held (Nat.le_of_eq (size_insertBefore ..).symm) fun other => ?_
  rw [size_insertBefore]
  exact held_insertBefore store (by simpa using hchild) parent other reference

end Listed

/-- A new node is the last child of the node that it is put into. -/
theorem children_append_add {store : Store} {parent : Handle}
    (hparent : parent < store.cells.size) (label : Label) (other : Handle) :
    ((store.add label).1.append parent store.cells.size).children other =
      if other = parent then store.children parent ++ [store.cells.size]
      else store.children other := by
  have hfree : (store.add label).1.parent store.cells.size = none := by
    rw [parent_add]
    exact parent_eq_none_of_size_le _ _ (Nat.le_refl _)
  have hdetach : (store.add label).1.detach store.cells.size = (store.add label).1 := by
    rw [Store.detach, hfree]
  unfold Store.append
  rw [hdetach, children_setChildren, children_setParent, children_setParent, children_add,
    children_add]
  by_cases heq : other = parent
  · rw [if_pos ⟨heq, by simpa [heq] using Nat.lt_succ_of_lt hparent⟩, if_pos heq]
  · rw [if_neg (fun hboth => heq hboth.1), if_neg heq]

theorem label_add_of_lt {store : Store} {handle : Handle} (hlt : handle < store.cells.size)
    (label : Label) : (store.add label).1.label handle = store.label handle := by
  rw [label_add, if_neg (Nat.ne_of_lt hlt)]

/-- A document with this root, and with these parts in the root: a head, or a head and a body. -/
structure Hosts (root : Handle) (parts : List Handle) (store : Store) : Prop where
  children : ∀ parent,
    (store.children parent).filter (fun child => (root :: parts).contains child) =
      if parent = 0 then [root] else if parent = root then parts else []
  named : parts.map (fun part => (store.label part).tag) <+: ["head", "body"]
  space : ∀ part ∈ parts, (store.label part).space = .html

namespace Hosts

variable {root : Handle} {parts : List Handle} {store : Store} (hhosts : store.Hosts root parts)
include hhosts

theorem tag_of_mem {part : Handle} (hmem : part ∈ parts) :
    (store.label part).tag = "head" ∨ (store.label part).tag = "body" := by
  simpa using hhosts.named.subset (List.mem_map_of_mem hmem)

theorem isElement_of_mem {part : Handle} (hmem : part ∈ parts) :
    (store.label part).isElement = true := by
  rw [Label.isElement]
  rcases hhosts.tag_of_mem hmem with hhead | hbody
  · rw [hhead]
    decide
  · rw [hbody]
    decide

/-- Of a single part the name is that of the head. -/
theorem not_mem_of_body (hlength : parts.length < 2) {handle : Handle}
    (htag : (store.label handle).tag = "body") : handle ∉ parts := by
  intro hmem
  have hnamed := hhosts.named
  match parts, hlength with
  | [part], _ =>
      cases List.mem_singleton.mp hmem
      rw [List.map_singleton, htag] at hnamed
      exact absurd (List.cons_prefix_cons.mp hnamed).1 (by decide)

/-- Elsewhere than below the document and in the root nothing is held. -/
theorem not_mem_of_mem_children {parent child : Handle} (hdocument : parent ≠ 0)
    (hroot : parent ≠ root) (hmem : child ∈ store.children parent) : child ∉ root :: parts := by
  have hnone := hhosts.children parent
  rw [if_neg hdocument, if_neg hroot, List.filter_eq_nil_iff] at hnone
  simpa using hnone child hmem

theorem of_children {after : Store}
    (hlabel : ∀ part ∈ parts, (after.label part).tag = (store.label part).tag ∧
      (after.label part).space = (store.label part).space)
    (hchildren : ∀ parent,
      (after.children parent).filter (fun child => (root :: parts).contains child) =
        (store.children parent).filter fun child => (root :: parts).contains child) :
    after.Hosts root parts where
  children parent := (hchildren parent).trans (hhosts.children parent)
  named := by
    rw [List.map_congr_left fun part hmem => (hlabel part hmem).1]
    exact hhosts.named
  space part hmem := (hlabel part hmem).2.trans (hhosts.space part hmem)

theorem add (label : Label) : (store.add label).1.Hosts root parts := by
  refine hhosts.of_children (fun part hmem => ?_) fun parent => by rw [children_add]
  rw [label_add_of_lt (lt_size_of_isElement (hhosts.isElement_of_mem hmem))]
  exact ⟨rfl, rfl⟩

theorem setAttributes (handle : Handle) (attributes : Attributes) :
    (store.setAttributes handle attributes).Hosts root parts :=
  hhosts.of_children (fun part _ => ⟨tag_setAttributes .., space_setAttributes ..⟩)
    fun parent => by rw [children_setAttributes]

/-- A new node in the root becomes the next part of it. -/
theorem append_part (hlisted : store.Listed) (hroot : root < store.cells.size) (hzero : root ≠ 0)
    {label : Label} (hspace : label.space = .html)
    (hnamed : parts.map (fun part => (store.label part).tag) ++ [label.tag] <+: ["head", "body"]) :
    ((store.add label).1.append root store.cells.size).Hosts root
      (parts ++ [store.cells.size]) := by
  have hold : ∀ part ∈ parts, ((store.add label).1.append root store.cells.size).label part =
      store.label part := fun part hmem => (label_append ..).trans
    (label_add_of_lt (lt_size_of_isElement (hhosts.isElement_of_mem hmem)) label)
  have hnew : ((store.add label).1.append root store.cells.size).label store.cells.size = label :=
    (label_append ..).trans ((label_add ..).trans (if_pos rfl))
  -- The new node is listed nowhere yet, so it makes no difference to hold it too.
  have hsame : ∀ parent, (store.children parent).filter
      (fun child => (root :: (parts ++ [store.cells.size])).contains child) =
        (store.children parent).filter fun child => (root :: parts).contains child := by
    intro parent
    refine List.filter_congr fun child hmem => ?_
    have hne := Nat.ne_of_lt (hlisted parent child hmem)
    simp [hne]
  refine ⟨fun parent => ?_, ?_, fun part hmem => ?_⟩
  · rw [children_append_add hroot]
    by_cases heq : parent = root
    · subst heq
      rw [if_pos rfl, List.filter_append, hsame, hhosts.children, if_neg hzero, if_pos rfl,
        if_neg hzero, if_pos rfl, List.filter_cons_of_pos (by simp), List.filter_nil]
    · rw [if_neg heq, hsame, hhosts.children, if_neg heq, if_neg heq]
  · rwa [List.map_append, List.map_congr_left fun part hmem => by rw [hold part hmem],
      List.map_singleton, hnew]
  · rcases List.mem_append.mp hmem with hpart | hlast
    · rw [hold part hpart]
      exact hhosts.space part hpart
    · rw [List.mem_singleton.mp hlast, hnew]
      exact hspace

section Edits

variable {child : Handle} (hchild : child ∉ root :: parts)
include hchild

theorem removeChild (parent : Handle) : (store.removeChild parent child).Hosts root parts :=
  hhosts.of_children (fun part _ => by simp) fun other =>
    held_removeChild store (by simpa using hchild) parent other

theorem detach : (store.detach child).Hosts root parts :=
  hhosts.of_children (fun part _ => by simp) fun other =>
    held_detach store (by simpa using hchild) other

theorem append (parent : Handle) : (store.append parent child).Hosts root parts :=
  hhosts.of_children (fun part _ => by simp) fun other =>
    held_append store (by simpa using hchild) parent other

theorem insertBefore (parent reference : Handle) :
    (store.insertBefore parent child reference).1.Hosts root parts :=
  hhosts.of_children (fun part _ => by simp) fun other =>
    held_insertBefore store (by simpa using hchild) parent other reference

end Edits

end Hosts

/-- A new node directly below the document becomes the root, without any parts yet. -/
theorem Listed.hosts_root {store : Store} (hlisted : store.Listed)
    (hdocument : 0 < store.cells.size) (label : Label) :
    ((store.add label).1.append 0 store.cells.size).Hosts store.cells.size [] := by
  have hnone : ∀ parent, (store.children parent).filter
      (fun child => [store.cells.size].contains child) = [] := by
    intro parent
    refine List.filter_eq_nil_iff.mpr fun child hmem => ?_
    have hne := Nat.ne_of_lt (hlisted parent child hmem)
    simp [hne]
  refine ⟨fun parent => ?_, List.nil_prefix, fun part hmem => absurd hmem List.not_mem_nil⟩
  rw [children_append_add hdocument]
  by_cases heq : parent = 0
  · subst heq
    rw [if_pos rfl, if_pos rfl, List.filter_append, hnone, List.nil_append,
      List.filter_cons_of_pos (by simp), List.filter_nil]
  · rw [if_neg heq, if_neg heq, hnone, ite_self]

end Store

end Winnow
