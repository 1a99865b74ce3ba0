import Winnow.Proofs.Store.Forest

/-!
# Sequences of edits

Any sequence of edits keeps the links of a store in step, the refused edits
included: what a refused edit leaves behind is linked too. As long as no node is
put under itself or under one of its descendants, the store stays a forest, and
then a node is connected exactly when a document without parent leads down to it.
-/

namespace Winnow.Store

/-! ## Edits as data -/

/-- A call of one of the operations on nodes. -/
inductive Edit where
  | new (label : Label)
  | append (parent child : Handle)
  | insertBefore (parent item reference : Handle)
  | removeChild (parent child : Handle)
  | detach (handle : Handle)
  | unwrap (handle : Handle)
  | setText (handle : Handle) (text : String)
  deriving Repr

namespace Edit

/-- The nodes that an edit is called with. -/
def handles : Edit → List Handle
  | new _ => []
  | append parent child => [parent, child]
  | insertBefore parent item reference => [parent, item, reference]
  | removeChild parent child => [parent, child]
  | detach handle => [handle]
  | unwrap handle => [handle]
  | setText handle _ => [handle]

/-- An edit is called with nodes of the store only. -/
def NamesNodes (store : Store) (edit : Edit) : Prop :=
  ∀ handle ∈ edit.handles, handle < store.cells.size

instance (store : Store) (edit : Edit) : Decidable (edit.NamesNodes store) :=
  inferInstanceAs (Decidable (∀ handle ∈ edit.handles, handle < store.cells.size))

/-- An edit puts a node under itself or under one of its descendants. -/
def Loops (store : Store) : Edit → Prop
  | append parent child => parent = child ∨ store.Above parent child
  | insertBefore parent item reference =>
    reference ∈ store.children parent ∧ reference ≠ item ∧
      (parent = item ∨ store.Above parent item)
  | _ => False

end Edit

/-- What an edit leaves behind, and the fault if it is refused. -/
def apply (store : Store) : Edit → Store × Option Fault
  | .new label =>
    match store.new label with
    | .ok (store, _) => (store, none)
    | .error fault => (store, some fault)
  | .append parent child => (store.append parent child, none)
  | .insertBefore parent item reference => store.insertBefore parent item reference
  | .removeChild parent child => (store.removeChild parent child, none)
  | .detach handle => (store.detach handle, none)
  | .unwrap handle => store.unwrap handle
  | .setText handle text => (store.setText handle text, none)

/-- The stores that a sequence of edits goes through. A refused edit does not end it. -/
def states (store : Store) : List Edit → List Store
  | [] => [store]
  | edit :: rest => store :: (store.apply edit).1.states rest

/-- A condition that holds of every edit of a sequence in the store that it is applied to. -/
def Throughout (condition : Store → Edit → Prop) : Store → List Edit → Prop
  | _, [] => True
  | store, edit :: rest => condition store edit ∧ Throughout condition (store.apply edit).1 rest

theorem Throughout.and {first second : Store → Edit → Prop} {store : Store} {edits : List Edit}
    (hfirst : Throughout first store edits) (hsecond : Throughout second store edits) :
    Throughout (fun store edit => first store edit ∧ second store edit) store edits := by
  induction edits generalizing store with
  | nil => trivial
  | cons edit rest ih => exact ⟨⟨hfirst.1, hsecond.1⟩, ih hfirst.2 hsecond.2⟩

/-- What every edit preserves holds in every store that a sequence goes through. -/
theorem states_induction {invariant : Store → Prop} {condition : Store → Edit → Prop}
    (hstep : ∀ store edit, invariant store → condition store edit →
      invariant (store.apply edit).1)
    {store : Store} {edits : List Edit} (hstart : invariant store)
    (hedits : Throughout condition store edits) :
    ∀ state ∈ store.states edits, invariant state := by
  induction edits generalizing store with
  | nil =>
      intro state hstate
      rw [List.mem_singleton.mp hstate]
      exact hstart
  | cons edit rest ih =>
      intro state hstate
      rcases List.mem_cons.mp hstate with rfl | hlater
      · exact hstart
      · exact ih (hstep store edit hstart hedits.1) hedits.2 state hlater

/-! ## Links in step after every edit -/

variable {store : Store}

theorem removeChild_of_not_mem {parent child : Handle} (hnot : child ∉ store.children parent) :
    store.removeChild parent child = store := by
  unfold removeChild
  rw [if_neg (fun hcontains => hnot (List.contains_iff_mem.mp hcontains))]

/-- A new node is added, or it is refused for its empty name and nothing changes. -/
theorem apply_new (store : Store) (label : Label) :
    (store.apply (.new label)).1 = (store.add label).1 ∨ (store.apply (.new label)).1 = store := by
  dsimp only [apply, new]
  by_cases hempty : label.tag.isEmpty
  · rw [if_pos hempty]
    exact Or.inr rfl
  · rw [if_neg hempty]
    exact Or.inl rfl

namespace Linked

theorem empty : Linked {} where
  mem_children_iff parent child := by
    rw [children_eq_nil_of_size_le _ parent (Nat.zero_le _),
      parent_eq_none_of_size_le _ child (Nat.zero_le _)]
    simp
  nodup_children handle := by
    rw [children_eq_nil_of_size_le _ handle (Nat.zero_le _)]
    exact List.nodup_nil

theorem removeChild (hlinked : store.Linked) (parent child : Handle) :
    (store.removeChild parent child).Linked := by
  by_cases hmem : child ∈ store.children parent
  · rw [removeChild_eq_detach (hlinked.parent_of_mem hmem)]
    exact hlinked.detach child
  · rw [removeChild_of_not_mem hmem]
    exact hlinked

/-- The links are in step even where a node could not be put before itself. -/
theorem insertBefore (hlinked : store.Linked) {item : Handle} (hitem : item < store.cells.size)
    (target reference : Handle) : (store.insertBefore target item reference).1.Linked := by
  by_cases hmem : reference ∈ store.children target
  · by_cases hself : reference = item
    · subst hself
      rw [hlinked.insertBefore_self hmem]
      exact hlinked.detach reference
    · obtain ⟨after, hafter, hlinkedAfter, -⟩ := hlinked.exists_insertBefore hmem hitem hself
      rw [hafter]
      exact hlinkedAfter
  · rw [insertBefore_of_not_mem hmem]
    exact hlinked

theorem insertAllBefore (items : List Handle) (hlinked : store.Linked)
    (hitems : ∀ item ∈ items, item < store.cells.size) (target reference : Handle) :
    (store.insertAllBefore target items reference).1.Linked := by
  induction items generalizing store with
  | nil => exact hlinked
  | cons item rest ih =>
      have hstep := hlinked.insertBefore (hitems item List.mem_cons_self) target reference
      have hsize := size_insertBefore store target item reference
      unfold Store.insertAllBefore
      generalize store.insertBefore target item reference = result at hstep hsize ⊢
      obtain ⟨middle, refused⟩ := result
      cases refused with
      | none =>
          refine ih hstep fun other hother => ?_
          rw [hsize]
          exact hitems other (List.mem_cons_of_mem _ hother)
      | some fault => exact hstep

/-- Unwrapping keeps the links in step, also where a node is above itself. -/
theorem unwrap (hlinked : store.Linked) (handle : Handle) : (store.unwrap handle).1.Linked := by
  unfold Store.unwrap
  split
  next => exact hlinked
  next parent hparent =>
    have hmoves := hlinked.insertAllBefore (store.children handle)
      (fun child hchild => hlinked.lt_size_of_mem hchild) parent handle
    generalize store.insertAllBefore parent (store.children handle) handle = result at hmoves ⊢
    obtain ⟨middle, refused⟩ := result
    cases refused with
    | none => exact Linked.removeChild hmoves parent handle
    | some fault => exact hmoves

theorem setText (hlinked : store.Linked) {handle : Handle} (hlt : handle < store.cells.size)
    (text : String) : (store.setText handle text).Linked := by
  by_cases htext : text = ""
  · unfold Store.setText
    dsimp only
    rw [if_pos (by simpa using htext)]
    exact (hlinked.emptied (store.children handle) rfl).linked
  · exact (hlinked.retexted hlt htext).linked

/-- Every edit of nodes of the store keeps the links in step. -/
theorem apply (hlinked : store.Linked) {edit : Edit} (hnames : edit.NamesNodes store) :
    (store.apply edit).1.Linked := by
  cases edit with
  | new label =>
      rcases store.apply_new label with hadded | hkept
      · rw [hadded]
        exact hlinked.add label
      · rw [hkept]
        exact hlinked
  | append parent child =>
      exact hlinked.append (hnames parent (by simp [Edit.handles]))
        (hnames child (by simp [Edit.handles]))
  | insertBefore parent item reference =>
      exact hlinked.insertBefore (hnames item (by simp [Edit.handles])) parent reference
  | removeChild parent child => exact hlinked.removeChild parent child
  | detach handle => exact hlinked.detach handle
  | unwrap handle => exact hlinked.unwrap handle
  | setText handle text => exact hlinked.setText (hnames handle (by simp [Edit.handles])) text

/-- No node stands twice in the lists of children taken together. -/
theorem nodup_flatMap_children (hlinked : store.Linked) :
    ((List.range store.cells.size).flatMap store.children).Nodup := by
  refine List.nodup_flatMap.mpr ⟨fun handle _ => hlinked.nodup_children handle, ?_⟩
  refine List.nodup_range.imp fun {first second} hne => ?_
  intro child hfirst hsecond
  exact hlinked.not_mem_children_of_parent_ne (hlinked.parent_of_mem hsecond) hne hfirst

end Linked

/-! ## Forests after every edit without loops -/

theorem not_above_of_parent_eq_none {lower upper : Handle} (hparent : store.parent lower = none) :
    ¬ store.Above lower upper := by
  intro habove
  obtain ⟨next, hnext, -⟩ := Relation.TransGen.head'_iff.mp habove
  rw [hparent] at hnext
  cases hnext

/-- Under a node without parent any other node may be put. -/
theorem Edit.not_loops_append {parent child : Handle} (hne : parent ≠ child)
    (hparent : store.parent parent = none) : ¬ (Edit.append parent child).Loops store :=
  not_or.mpr ⟨hne, not_above_of_parent_eq_none hparent⟩

/-- After a move a way up is an old one, or it leads through the moved node to its new parent. -/
theorem Moved.above {before after : Store} {target item : Handle} {listed : List Handle}
    (hmoved : Moved before after target item listed) {lower upper : Handle}
    (habove : after.Above lower upper) :
    before.Above lower upper ∨
      (lower = item ∨ before.Above lower item) ∧
        (upper = target ∨ before.Above target upper) := by
  induction habove with
  | single hlink =>
      rw [hmoved.parent] at hlink
      split at hlink
      next heq => exact Or.inr ⟨Or.inl heq, Or.inl (Option.some.inj hlink).symm⟩
      next => exact Or.inl (Above.of_parent hlink)
  | @tail middle upper _ hlink ih =>
      rw [hmoved.parent] at hlink
      split at hlink
      next heq =>
        refine Or.inr ⟨?_, Or.inl (Option.some.inj hlink).symm⟩
        rcases ih with hold | ⟨hthrough, -⟩
        · exact Or.inr (heq ▸ hold)
        · exact hthrough
      next =>
        have hstep := Above.of_parent hlink
        rcases ih with hold | ⟨hthrough, rfl | hbeyond⟩
        · exact Or.inl (hold.trans hstep)
        · exact Or.inr ⟨hthrough, Or.inr hstep⟩
        · exact Or.inr ⟨hthrough, Or.inr (hbeyond.trans hstep)⟩

namespace IsForest

theorem empty : IsForest {} where
  linked := Linked.empty
  acyclic _ := not_above_of_parent_eq_none (parent_eq_none_of_size_le _ _ (Nat.zero_le _))

variable (hforest : store.IsForest)
include hforest

/-- A node may be moved under any node that is neither itself nor one of its descendants. -/
theorem moved {after : Store} {target item : Handle} {listed : List Handle}
    (hmoved : Moved store after target item listed) (hlinked : after.Linked)
    (hloop : ¬ (target = item ∨ store.Above target item)) : after.IsForest where
  linked := hlinked
  acyclic handle habove := by
    rw [not_or] at hloop
    rcases hmoved.above habove with hold | ⟨rfl | hitem, htarget⟩
    · exact hforest.acyclic handle hold
    · exact htarget.elim (fun heq => hloop.1 heq.symm) hloop.2
    · rcases htarget with rfl | htarget
      · exact hloop.2 hitem
      · exact hloop.2 (htarget.trans hitem)

theorem append {target item : Handle} (htarget : target < store.cells.size)
    (hitem : item < store.cells.size) (hloop : ¬ (Edit.append target item).Loops store) :
    (store.append target item).IsForest :=
  hforest.moved (hforest.linked.moved_append htarget hitem)
    (hforest.linked.append htarget hitem) hloop

theorem insertBefore {target item reference : Handle} (hitem : item < store.cells.size)
    (hloop : ¬ (Edit.insertBefore target item reference).Loops store) :
    (store.insertBefore target item reference).1.IsForest := by
  by_cases hmem : reference ∈ store.children target
  · by_cases hself : reference = item
    · subst hself
      rw [hforest.linked.insertBefore_self hmem]
      exact hforest.detach reference
    · obtain ⟨after, hafter, hlinked, hmoved⟩ :=
        hforest.linked.exists_insertBefore hmem hitem hself
      rw [hafter]
      exact hforest.moved hmoved hlinked fun hunder => hloop ⟨hmem, hself, hunder⟩
  · rw [insertBefore_of_not_mem hmem]
    exact hforest

theorem removeChild (parent child : Handle) : (store.removeChild parent child).IsForest := by
  by_cases hmem : child ∈ store.children parent
  · rw [removeChild_eq_detach (hforest.linked.parent_of_mem hmem)]
    exact hforest.detach child
  · rw [removeChild_of_not_mem hmem]
    exact hforest

/-- Unwrapping only shortens the ways up, so it needs no condition. -/
theorem unwrap (handle : Handle) : (store.unwrap handle).1.IsForest := by
  cases hparent : store.parent handle with
  | none =>
      unfold Store.unwrap
      rw [hparent]
      exact hforest
  | some parent =>
      obtain ⟨front, back, hsplit, -⟩ := hforest.linked.exists_children_split hparent
      obtain ⟨after, hafter, hunwrapped⟩ :=
        hforest.linked.exists_unwrap (hforest.parent_ne_self hparent) hsplit
      rw [hafter]
      exact hforest.unwrapped hparent hunwrapped

/-- Every edit that puts no node under itself keeps a forest. -/
theorem apply {edit : Edit} (hnames : edit.NamesNodes store) (hloop : ¬ edit.Loops store) :
    (store.apply edit).1.IsForest := by
  cases edit with
  | new label =>
      rcases store.apply_new label with hadded | hkept
      · rw [hadded]
        exact hforest.add label
      · rw [hkept]
        exact hforest
  | append parent child =>
      exact hforest.append (hnames parent (by simp [Edit.handles]))
        (hnames child (by simp [Edit.handles])) hloop
  | insertBefore parent item reference =>
      exact hforest.insertBefore (hnames item (by simp [Edit.handles])) hloop
  | removeChild parent child => exact hforest.removeChild parent child
  | detach handle => exact hforest.detach handle
  | unwrap handle => exact hforest.unwrap handle
  | setText handle text => exact hforest.setText (hnames handle (by simp [Edit.handles])) text

end IsForest

/-! ## What is connected -/

/-- A way down from one node to another through the children. -/
def Reaches (store : Store) : Handle → Handle → Prop :=
  Relation.ReflTransGen fun parent child => child ∈ store.children parent

/-- The way up can be gone back through the children. -/
theorem Linked.reaches_topFrom (hlinked : store.Linked) (fuel : Nat) (handle : Handle) :
    store.Reaches (store.topFrom fuel handle) handle := by
  induction fuel generalizing handle with
  | zero => exact Relation.ReflTransGen.refl
  | succ fuel ih =>
      cases hparent : store.parent handle with
      | none =>
          rw [topFrom_of_parent_eq_none hparent]
          exact Relation.ReflTransGen.refl
      | some parent =>
          rw [topFrom_succ_of_parent hparent]
          exact (ih parent).tail (hlinked.mem_of_parent hparent)

namespace IsForest

variable (hforest : store.IsForest)
include hforest

theorem top_of_reaches {root handle : Handle} (hroot : store.parent root = none)
    (hreaches : store.Reaches root handle) : store.top handle = root := by
  induction hreaches with
  | refl => exact topFrom_of_parent_eq_none hroot _
  | tail _ hchild ih =>
      rw [hforest.top_of_parent (hforest.linked.parent_of_mem hchild), ih]

/-- The connected nodes are those below a document that has no parent. -/
theorem isConnected_iff (handle : Handle) : store.isConnected handle = true ↔
    ∃ root, store.parent root = none ∧ (store.label root).tag = "#document" ∧
      store.Reaches root handle := by
  unfold isConnected
  rw [beq_iff_eq]
  constructor
  · intro htag
    exact ⟨store.top handle, hforest.parent_top handle, htag,
      hforest.linked.reaches_topFrom _ handle⟩
  · rintro ⟨root, hroot, htag, hreaches⟩
    rw [hforest.top_of_reaches hroot hreaches]
    exact htag

end IsForest

/-! ## Every sequence of edits -/

/-- In every store that a sequence of edits reaches, refused edits included, the links are
in step and no node is a child twice. Without loops the way up ends, and the connected
nodes are those that a document without parent leads down to. -/
theorem states_in_step (edits : List Edit) (hnames : Throughout Edit.NamesNodes {} edits) :
    ∀ store ∈ states {} edits,
      (∀ parent child, child ∈ store.children parent ↔ store.parent child = some parent) ∧
      ((List.range store.cells.size).flatMap store.children).Nodup ∧
      (Throughout (fun store edit => ¬ edit.Loops store) {} edits →
        (∀ handle, ¬ store.Above handle handle) ∧
        (∀ handle, store.parent (store.top handle) = none) ∧
        ∀ handle, store.isConnected handle = true ↔
          ∃ root, store.parent root = none ∧ (store.label root).tag = "#document" ∧
            store.Reaches root handle) := by
  intro store hstore
  have hlinked : store.Linked :=
    states_induction (fun _ _ hlinked hedit => hlinked.apply hedit) Linked.empty hnames
      store hstore
  refine ⟨hlinked.mem_children_iff, hlinked.nodup_flatMap_children, fun hloops => ?_⟩
  have hforest : store.IsForest :=
    states_induction (fun _ _ hforest hedit => hforest.apply hedit.1 hedit.2) IsForest.empty
      (hnames.and hloops) store hstore
  exact ⟨hforest.acyclic, hforest.parent_top, hforest.isConnected_iff⟩

/-- A paragraph put before itself, which is refused and leaves it out, then put back and
unwrapped around a bold element. -/
def paragraphEdits : List Edit :=
  [.new { tag := "#document" }, .new { tag := "" }, .new { tag := "p" }, .new { tag := "b" },
    .append 1 2, .append 0 1, .insertBefore 0 1 1, .append 0 1, .unwrap 1, .setText 2 "x"]

theorem states_in_step_paragraph :
    Throughout Edit.NamesNodes {} paragraphEdits ∧
      Throughout (fun store edit => ¬ edit.Loops store) {} paragraphEdits ∧
      ∃ store ∈ states {} paragraphEdits, store.isConnected 2 = true ∧
        (∃ root, store.parent root = none ∧ (store.label root).tag = "#document" ∧
          store.Reaches root 2) ∧
        ((List.range store.cells.size).flatMap store.children).Nodup := by
  have hnames : Throughout Edit.NamesNodes {} paragraphEdits := by
    refine ⟨?_, ?_, ?_, ?_, ?_, ?_, ?_, ?_, ?_, ?_, trivial⟩ <;> decide
  have hloops : Throughout (fun store edit => ¬ edit.Loops store) {} paragraphEdits := by
    refine ⟨id, id, id, id, ?_, ?_, ?_, ?_, id, id, trivial⟩
    · exact Edit.not_loops_append (by decide) (by decide)
    · exact Edit.not_loops_append (by decide) (by decide)
    · exact fun hloop => hloop.2.1 rfl
    · exact Edit.not_loops_append (by decide) (by decide)
  obtain ⟨store, hstore, hconnected⟩ :
      ∃ store ∈ states {} paragraphEdits, store.isConnected 2 = true :=
    ⟨(states {} paragraphEdits).getLast (by decide), List.getLast_mem _, by decide⟩
  have hstep := states_in_step paragraphEdits hnames store hstore
  exact ⟨hnames, hloops, store, hstore, hconnected, ((hstep.2.2 hloops).2.2 2).mp hconnected,
    hstep.2.1⟩

end Winnow.Store
