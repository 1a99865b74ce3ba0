import Mathlib.Data.Finset.Card
import Mathlib.Logic.Relation
import Winnow.Proofs.Store.Rearrange

/-!
# Forests

A store is a forest if its links are in step and no node is above itself. In a
forest the search for the topmost node reaches it, and so a node is connected
exactly when its parent is. The edits of a pass keep a store a forest.
-/

namespace Winnow.Store

/-- The second node is somewhere above the first. -/
def Above (store : Store) : Handle → Handle → Prop :=
  Relation.TransGen fun child parent => store.parent child = some parent

/-- Links in step without a cycle. -/
structure IsForest (store : Store) : Prop where
  linked : store.Linked
  acyclic : ∀ handle, ¬ store.Above handle handle

variable {store : Store}

namespace Above

theorem of_parent {child parent : Handle} (hparent : store.parent child = some parent) :
    store.Above child parent := Relation.TransGen.single hparent

/-- Whatever is above a node is its parent or above its parent. -/
theorem eq_or_above_parent {child parent upper : Handle} (habove : store.Above child upper)
    (hparent : store.parent child = some parent) :
    upper = parent ∨ store.Above parent upper := by
  rcases Relation.TransGen.head'_iff.mp habove with ⟨next, hnext, hrest⟩
  rw [hparent] at hnext
  cases hnext
  rcases Relation.reflTransGen_iff_eq_or_transGen.mp hrest with heq | htrans
  · exact Or.inl heq
  · exact Or.inr htrans

/-- A store whose links lead no further up than those of another has no new ancestors. -/
theorem mono {after : Store}
    (hlinks : ∀ child parent, after.parent child = some parent → store.Above child parent)
    {lower upper : Handle} (habove : after.Above lower upper) : store.Above lower upper := by
  induction habove with
  | single hlink => exact hlinks _ _ hlink
  | tail _ hlink ih => exact ih.trans (hlinks _ _ hlink)

/-- The same with one further node that is nowhere a parent. -/
theorem mono_of_leaf {after : Store} {leaf : Handle}
    (hleaf : ∀ child, after.parent child ≠ some leaf)
    (hlinks : ∀ child parent, child ≠ leaf → after.parent child = some parent →
      store.Above child parent)
    {lower upper : Handle} (hlower : lower ≠ leaf) (habove : after.Above lower upper) :
    store.Above lower upper := by
  induction habove with
  | single hlink => exact hlinks _ _ hlower hlink
  | tail hbelow hlink ih =>
      obtain ⟨last, -, hlast⟩ := Relation.TransGen.tail'_iff.mp hbelow
      exact ih.trans (hlinks _ _ (fun heq => hleaf last (heq ▸ hlast)) hlink)

end Above

/-- What is below a node is a child or below one. -/
theorem Linked.above_iff (hlinked : store.Linked) {lower upper : Handle} :
    store.Above lower upper ↔
      ∃ child ∈ store.children upper, lower = child ∨ store.Above lower child := by
  have hreach : ∀ child : Handle,
      Relation.ReflTransGen (fun child parent => store.parent child = some parent) lower child ↔
        lower = child ∨ store.Above lower child := fun child =>
    Relation.reflTransGen_iff_eq_or_transGen.trans (or_congr_left eq_comm)
  unfold Above at hreach ⊢
  rw [Relation.TransGen.tail'_iff]
  simp only [hreach, hlinked.mem_children_iff, and_comm]

namespace IsForest

variable (hforest : store.IsForest)
include hforest

theorem parent_ne_self {child parent : Handle} (hparent : store.parent child = some parent) :
    parent ≠ child := by
  intro heq
  exact hforest.acyclic child (Above.of_parent (heq ▸ hparent))

theorem of_links {after : Store} (hlinked : after.Linked)
    (hlinks : ∀ child parent, after.parent child = some parent → store.Above child parent) :
    after.IsForest where
  linked := hlinked
  acyclic handle habove := hforest.acyclic handle (habove.mono hlinks)

end IsForest

/-! ## The topmost node -/

open Classical in
/-- The nodes above a node. -/
noncomputable def ancestors (store : Store) (handle : Handle) : Finset Handle :=
  {upper ∈ Finset.range store.cells.size | store.Above handle upper}

theorem card_ancestors_le (handle : Handle) :
    (store.ancestors handle).card ≤ store.cells.size := by
  classical
  exact (Finset.card_filter_le _ _).trans_eq (Finset.card_range _)

theorem topFrom_of_parent_eq_none {handle : Handle} (hparent : store.parent handle = none)
    (fuel : Nat) : store.topFrom fuel handle = handle := by
  cases fuel with
  | zero => rfl
  | succ fuel => rw [topFrom, hparent]

theorem topFrom_succ_of_parent {handle parent : Handle}
    (hparent : store.parent handle = some parent) (fuel : Nat) :
    store.topFrom (fuel + 1) handle = store.topFrom fuel parent := by
  rw [topFrom, hparent]

/-- Once a node without parent is reached, more steps do not matter. -/
theorem topFrom_succ_of_reached {handle : Handle} {fuel : Nat}
    (hreached : store.parent (store.topFrom fuel handle) = none) :
    store.topFrom (fuel + 1) handle = store.topFrom fuel handle := by
  induction fuel generalizing handle with
  | zero => exact topFrom_of_parent_eq_none hreached 1
  | succ fuel ih =>
      cases hparent : store.parent handle with
      | none =>
          rw [topFrom_of_parent_eq_none hparent, topFrom_of_parent_eq_none hparent]
      | some parent =>
          rw [topFrom_succ_of_parent hparent] at hreached
          rw [topFrom_succ_of_parent hparent, topFrom_succ_of_parent hparent, ih hreached]

namespace IsForest

variable (hforest : store.IsForest)
include hforest

theorem card_ancestors_lt {child parent : Handle}
    (hparent : store.parent child = some parent) :
    (store.ancestors parent).card < (store.ancestors child).card := by
  classical
  have hstep := Above.of_parent hparent
  apply Finset.card_lt_card
  refine Finset.ssubset_iff_subset_ne.mpr ⟨?_, ?_⟩
  · intro upper hupper
    obtain ⟨hrange, habove⟩ := Finset.mem_filter.mp hupper
    exact Finset.mem_filter.mpr ⟨hrange, hstep.trans habove⟩
  · intro heq
    have hmem : parent ∈ store.ancestors child :=
      Finset.mem_filter.mpr
        ⟨Finset.mem_range.mpr (hforest.linked.lt_size_of_parent_eq hparent), hstep⟩
    rw [← heq] at hmem
    exact hforest.acyclic parent (Finset.mem_filter.mp hmem).2

/-- What holds of a node once it holds of its children holds of every node. -/
theorem below_induction {motive : Handle → Prop}
    (step : ∀ handle, (∀ child ∈ store.children handle, motive child) → motive handle)
    (handle : Handle) : motive handle := by
  -- Going down, the number of ancestors grows and stays within the size of the store.
  induction hdepth : store.cells.size - (store.ancestors handle).card using Nat.strong_induction_on
    generalizing handle with
  | _ depth ih =>
      refine step handle fun child hmem => ih _ ?_ child rfl
      have hlt := hforest.card_ancestors_lt (hforest.linked.parent_of_mem hmem)
      have hle := @card_ancestors_le store child
      omega

/-- Going up as often as a node has ancestors leads to a node without parent. -/
theorem parent_topFrom (fuel : Nat) (handle : Handle)
    (hfuel : (store.ancestors handle).card ≤ fuel) :
    store.parent (store.topFrom fuel handle) = none := by
  induction fuel generalizing handle with
  | zero =>
      cases hparent : store.parent handle with
      | none => exact hparent
      | some parent =>
          have hlt := hforest.card_ancestors_lt hparent
          omega
  | succ fuel ih =>
      cases hparent : store.parent handle with
      | none =>
          rw [topFrom_of_parent_eq_none hparent]
          exact hparent
      | some parent =>
          have hlt := hforest.card_ancestors_lt hparent
          rw [topFrom_succ_of_parent hparent]
          exact ih parent (by omega)

theorem parent_top (handle : Handle) : store.parent (store.top handle) = none :=
  hforest.parent_topFrom _ _ (card_ancestors_le handle)

theorem top_of_parent {child parent : Handle} (hparent : store.parent child = some parent) :
    store.top child = store.top parent := by
  have hreached := hforest.parent_top child
  unfold top at hreached ⊢
  rw [← topFrom_succ_of_reached hreached, topFrom_succ_of_parent hparent]

/-- A node is connected exactly when its parent is. -/
theorem isConnected_of_parent {child parent : Handle}
    (hparent : store.parent child = some parent) :
    store.isConnected child = store.isConnected parent := by
  unfold isConnected
  rw [hforest.top_of_parent hparent]

omit hforest in
/-- A node without parent is connected exactly when it is a document. -/
theorem isConnected_of_parent_eq_none {handle : Handle}
    (hparent : store.parent handle = none) :
    store.isConnected handle = ((store.label handle).tag == "#document") := by
  unfold isConnected top
  rw [topFrom_of_parent_eq_none hparent]

/-! ## Edits -/

theorem detach (handle : Handle) : (store.detach handle).IsForest := by
  refine hforest.of_links (hforest.linked.detach handle) ?_
  intro child parent hlink
  rw [hforest.linked.parent_detach] at hlink
  split at hlink
  next => cases hlink
  next => exact Above.of_parent hlink

theorem setAttributes (handle : Handle) (attributes : Attributes) :
    (store.setAttributes handle attributes).IsForest := by
  refine hforest.of_links (hforest.linked.setAttributes handle attributes) ?_
  intro child parent hlink
  rw [parent_setAttributes] at hlink
  exact Above.of_parent hlink

theorem unwrapped {after : Store} {handle parent : Handle} {front back : List Handle}
    (hparent : store.parent handle = some parent)
    (hunwrapped : Unwrapped store after handle parent front back) : after.IsForest := by
  refine hforest.of_links hunwrapped.linked ?_
  intro child upper hlink
  by_cases hself : child = handle
  · rw [hself, hunwrapped.parent_self] at hlink
    cases hlink
  by_cases hchild : child ∈ store.children handle
  · rw [hunwrapped.parent_child child hchild] at hlink
    cases hlink
    exact (Above.of_parent (hforest.linked.parent_of_mem hchild)).trans
      (Above.of_parent hparent)
  · rw [hunwrapped.parent_other child hself hchild] at hlink
    exact Above.of_parent hlink

theorem add (label : Label) : (store.add label).1.IsForest := by
  refine hforest.of_links (hforest.linked.add label) ?_
  intro child parent hlink
  rw [parent_add] at hlink
  exact Above.of_parent hlink

theorem emptied {after : Store} {handle : Handle} (hemptied : Emptied store after handle) :
    after.IsForest := by
  refine hforest.of_links hemptied.linked ?_
  intro child parent hlink
  rw [hemptied.parent] at hlink
  split at hlink
  next => cases hlink
  next => exact Above.of_parent hlink

/-- A node without children may become a child anywhere else. -/
theorem append_leaf {target leaf : Handle} (htarget : target < store.cells.size)
    (hlt : leaf < store.cells.size) (hleaf : store.children leaf = []) (hne : target ≠ leaf) :
    (store.append target leaf).IsForest where
  linked := hforest.linked.append htarget hlt
  acyclic := by
    have hmoved := hforest.linked.moved_append htarget hlt
    have hnowhere : ∀ child, (store.append target leaf).parent child ≠ some leaf := by
      intro child hlink
      rw [hmoved.parent] at hlink
      split at hlink
      next => exact hne (Option.some.inj hlink)
      next =>
        have hmem := hforest.linked.mem_of_parent hlink
        rw [hleaf] at hmem
        cases hmem
    intro upper habove
    have hupper : upper ≠ leaf := by
      intro heq
      obtain ⟨last, -, hlast⟩ := Relation.TransGen.tail'_iff.mp habove
      rw [heq] at hlast
      exact hnowhere last hlast
    refine hforest.acyclic upper (Above.mono_of_leaf hnowhere ?_ hupper habove)
    intro child parent hchild hlink
    rw [hmoved.parent, if_neg hchild] at hlink
    exact Above.of_parent hlink

theorem setText {handle : Handle} (hlt : handle < store.cells.size) (text : String) :
    (store.setText handle text).IsForest := by
  have hlinked := hforest.linked.emptied (store.children handle) rfl
  have hemptied := hforest.emptied hlinked
  unfold Store.setText
  dsimp only
  rw [handle_add]
  generalize (store.children handle).foldl
    (fun store child => store.removeChild handle child) store = emptied at hlinked hemptied ⊢
  split
  next => exact hemptied
  next =>
    refine (hemptied.add _).append_leaf ?_ ?_ ?_ ?_
    · rw [size_add, hlinked.size]
      exact Nat.lt_succ_of_lt hlt
    · rw [size_add]
      exact Nat.lt_succ_self _
    · rw [children_add]
      exact children_eq_nil_of_size_le _ _ (Nat.le_refl _)
    · rw [hlinked.size]
      exact Nat.ne_of_lt hlt

end IsForest

end Winnow.Store
