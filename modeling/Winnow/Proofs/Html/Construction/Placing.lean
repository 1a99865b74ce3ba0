import Winnow.Html.Construction
import Winnow.Proofs.Store.Held

/-!
# What placing nodes leaves as it is

New nodes are put below others, and nodes are moved. Neither changes what the nodes are, what is
open or how the next token is taken. Continuing formatting elements opens copies of them, and the
end of one rearranges what is open, but the mode stays what it is.
-/

namespace Winnow.Html

/-- A search does not go over what it stops at. -/
theorem mem_dropWhile {handle : Handle} {closes : Handle → Bool} {stack : List Handle}
    (hmem : handle ∈ stack) (hstops : closes handle = false) :
    handle ∈ stack.dropWhile closes := by
  rw [← List.takeWhile_append_dropWhile (p := closes) (l := stack)] at hmem
  refine (List.mem_append.mp hmem).resolve_left fun hbefore => ?_
  rw [List.all_eq_true.mp List.all_takeWhile handle hbefore] at hstops
  cases hstops

namespace Builder

/-- The parts of a builder that its root depends on. -/
def frame (b : Builder) :=
  (b.store, b.stack, b.formatting, b.headElement, b.formElement, b.tableReturn)

/-- The mode, and the modes to go back to after raw text and after text in a table. -/
def modes (b : Builder) : Mode × Mode × Mode := (b.mode, b.textReturn, b.tableReturn)

/-! ## Placing nodes -/

section Placing

variable (b : Builder) (parent child handle : Handle)

@[simp] theorem label_attach : (b.attach parent child).label handle = b.label handle :=
  Store.label_append ..

@[simp] theorem label_foster : (b.foster child).label handle = b.label handle := by
  unfold foster
  split
  · exact Store.label_insertBefore ..
  · exact label_attach ..

@[simp] theorem label_place : (b.place child).label handle = b.label handle := by
  unfold place
  split
  · exact label_foster ..
  · exact label_attach ..

/-- A foster parent takes a node without any change to the rest. -/
theorem foster_eq : b.foster child =
    { b with store := (b.foster child).store, strays := (b.foster child).strays } := by
  unfold foster
  split
  · rfl
  · rfl

theorem place_eq : b.place child =
    { b with store := (b.place child).store, strays := (b.place child).strays } := by
  unfold place
  split
  · exact foster_eq b child
  · rfl

theorem mode_openLabel (label : Label) : (b.openLabel label).mode = b.mode := by
  have hplaced := congrArg Builder.mode (place_eq (b.create label).1 (b.create label).2)
  exact hplaced

theorem textReturn_openLabel (label : Label) : (b.openLabel label).textReturn = b.textReturn := by
  have hplaced := congrArg Builder.textReturn (place_eq (b.create label).1 (b.create label).2)
  exact hplaced

theorem formatting_openLabel (label : Label) : (b.openLabel label).formatting = b.formatting := by
  have hplaced := congrArg Builder.formatting (place_eq (b.create label).1 (b.create label).2)
  exact hplaced

theorem headElement_openLabel (label : Label) :
    (b.openLabel label).headElement = b.headElement := by
  have hplaced := congrArg Builder.headElement (place_eq (b.create label).1 (b.create label).2)
  exact hplaced

theorem stack_openLabel (label : Label) :
    (b.openLabel label).stack = b.store.cells.size :: b.stack := by
  have hplaced := congrArg Builder.stack (place_eq (b.create label).1 (b.create label).2)
  exact congrArg (b.store.cells.size :: ·) hplaced

theorem label_openLabel_of_lt (label : Label) (hlt : handle < b.store.cells.size) :
    (b.openLabel label).label handle = b.label handle := by
  refine (label_place ..).trans ?_
  change (b.store.add label).1.label handle = b.store.label handle
  exact Store.label_add_of_lt hlt label

theorem label_current_openLabel (label : Label) :
    (b.openLabel label).label (b.openLabel label).current = label := by
  refine (label_place ..).trans ?_
  change (b.store.add label).1.label b.store.cells.size = label
  rw [Store.label_add, if_pos rfl]

theorem label_addText_of_lt (text : String) (hlt : handle < b.store.cells.size) :
    (b.addText text).label handle = b.label handle := by
  have hcreated : (b.create (.ofText text)).1.label handle = b.label handle := by
    change (b.store.add (.ofText text)).1.label handle = b.store.label handle
    exact Store.label_add_of_lt hlt _
  unfold addText
  dsimp only
  split
  · split
    · exact (Store.label_insertBefore ..).trans hcreated
    · exact (label_attach ..).trans hcreated
  · exact (label_attach ..).trans hcreated

theorem label_addComment_of_lt (text : String) (hlt : handle < b.store.cells.size) :
    (b.addComment parent text).label handle = b.label handle := by
  refine (label_attach ..).trans ?_
  change (b.store.add (.ofComment text)).1.label handle = b.store.label handle
  exact Store.label_add_of_lt hlt _

theorem addText_eq (text : String) : b.addText text =
    { b with store := (b.addText text).store, strays := (b.addText text).strays } := by
  unfold addText
  dsimp only
  split
  · split
    · rfl
    · rfl
  · rfl

theorem stack_addText (text : String) : (b.addText text).stack = b.stack := by
  have hadded := congrArg Builder.stack (addText_eq b text)
  exact hadded

/-- What is expected makes no difference but to the fault. -/
theorem expect_eq_fault (ok : Bool) : b.expect ok = { b with fault := (b.expect ok).fault } := by
  unfold expect
  split
  · rfl
  · rfl

end Placing

/-! ## Moved content -/

section Content

variable (b : Builder) (target handle : Handle)

theorem label_foldl_attach (handles : List Handle) :
    (handles.foldl (fun b child => b.attach target child) b).label handle = b.label handle := by
  induction handles generalizing b with
  | nil => rfl
  | cons child rest ih => rw [List.foldl_cons, ih, label_attach]

theorem label_foldl_removeChild (store : Store) (source : Handle) (handles : List Handle) :
    (handles.foldl (fun store child => store.removeChild source child) store).label handle =
      store.label handle := by
  induction handles generalizing store with
  | nil => rfl
  | cons child rest ih => rw [List.foldl_cons, ih, Store.label_removeChild]

theorem label_moveContent (source : Handle) :
    (b.moveContent source target).label handle = b.label handle :=
  (label_foldl_attach ..).trans (label_foldl_removeChild ..)

/-- What follows when content moves is part of it. -/
theorem mem_of_mem_followers {b : Builder} {follows : Bool} {handles : List Handle} {child : Handle}
    (hmem : child ∈ b.followers follows handles) : child ∈ handles := by
  induction handles generalizing follows with
  | nil => cases hmem
  | cons handle rest ih =>
      unfold followers at hmem
      dsimp only at hmem
      generalize (if (b.label handle).isText then follows else !b.strays.contains handle) =
        onward at hmem
      split at hmem
      next =>
        rcases List.mem_cons.mp hmem with rfl | hrest
        · exact List.mem_cons_self
        · exact List.mem_cons_of_mem _ (ih hrest)
      next => exact List.mem_cons_of_mem _ (ih hmem)

theorem label_placeIn (parent child : Handle) :
    (b.placeIn parent child).label handle = b.label handle := by
  unfold placeIn
  dsimp only
  split
  · exact (label_foster ..).trans (Store.label_detach ..)
  · exact (label_attach ..).trans (Store.label_detach ..)

theorem moveContent_eq (source target : Handle) : b.moveContent source target =
    { b with
      store := (b.moveContent source target).store
      strays := (b.moveContent source target).strays } := by
  have hfold : ∀ (handles : List Handle) (b : Builder),
      handles.foldl (fun b child => b.attach target child) b = { b with
        store := (handles.foldl (fun b child => b.attach target child) b).store
        strays := (handles.foldl (fun b child => b.attach target child) b).strays } := by
    intro handles
    induction handles with
    | nil => exact fun _ => rfl
    | cons child rest ih => exact fun b => ih (b.attach target child)
  exact hfold _ _

theorem placeIn_eq (parent child : Handle) : b.placeIn parent child =
    { b with
      store := (b.placeIn parent child).store, strays := (b.placeIn parent child).strays } := by
  unfold placeIn
  dsimp only
  split
  · exact foster_eq { b with store := b.store.detach child } child
  · rfl

end Content

/-! ## The mode -/

section Modes

variable (b : Builder)

theorem modes_openLabel (label : Label) : (b.openLabel label).modes = b.modes := by
  have hplaced := congrArg modes (place_eq (b.create label).1 (b.create label).2)
  exact hplaced

theorem modes_addText (text : String) : (b.addText text).modes = b.modes := by
  have hsame := congrArg modes (addText_eq b text)
  exact hsame

theorem modes_attach (parent child : Handle) : (b.attach parent child).modes = b.modes := rfl

theorem modes_moveContent (source target : Handle) :
    (b.moveContent source target).modes = b.modes := by
  rw [moveContent_eq]
  rfl

theorem modes_placeIn (parent child : Handle) : (b.placeIn parent child).modes = b.modes := by
  rw [placeIn_eq]
  rfl

theorem modes_dropFourth (handle : Handle) : (b.dropFourth handle).modes = b.modes := by
  unfold dropFourth
  dsimp only
  split
  · rfl
  · rfl

theorem modes_reopen (handles : List Handle) (copies : List (Option Handle)) :
    (b.reopen handles copies).1.modes = b.modes := by
  induction handles generalizing b copies with
  | nil => rfl
  | cons handle rest ih => exact (ih _ _).trans (modes_openLabel b _)

theorem modes_reconstruct : b.reconstruct.modes = b.modes := modes_reopen b _ _

theorem modes_closeNamed (tag : String) (handles : List Handle) :
    (b.closeNamed tag handles).modes = b.modes := by
  induction handles with
  | nil => rfl
  | cons handle outer ih =>
      unfold closeNamed
      dsimp only
      split
      · rfl
      · split
        · rfl
        · exact ih

theorem modes_climb (block : Handle) (count : Nat) (between : List Handle) (chain : Chain) :
    (climb block count between chain).builder.modes = chain.builder.modes := by
  induction count generalizing between chain with
  | zero => rfl
  | succ count ih =>
      cases between with
      | nil => rfl
      | cons handle outer =>
          unfold climb
          dsimp only
          split
          · exact ih ..
          · exact ih ..

theorem modes_splitAtBlock (element block : Handle) (inner between outer : List Handle) :
    (b.splitAtBlock element block inner between outer).modes = b.modes := by
  unfold splitAtBlock
  dsimp only
  have hclimbed := modes_climb block 3 between {
    builder := b, between := [], node := block,
    later := (b.formatting.idxOf? (some element)).getD 0 }
  generalize climb block 3 between _ = chain at hclimbed ⊢
  have hplaced := (modes_placeIn chain.builder (outer.headD 0) chain.node).trans hclimbed
  generalize chain.builder.placeIn (outer.headD 0) chain.node = placed at hplaced ⊢
  have hcreated : (placed.create (placed.label element)).1.modes = b.modes := hplaced
  generalize placed.create (placed.label element) = created at hcreated ⊢
  have hmoved := (modes_moveContent created.1 block created.2).trans hcreated
  generalize created.1.moveContent block created.2 = moved at hmoved ⊢
  exact hmoved

theorem modes_endFormatting (tag : String) : (b.endFormatting tag).modes = b.modes := by
  suffices hended : ∀ rounds (b : Builder), (b.endFormattingIn tag rounds).modes = b.modes from
    hended 8 b
  intro rounds
  induction rounds with
  | zero => exact fun _ => rfl
  | succ rounds ih =>
      intro b
      unfold endFormattingIn
      dsimp only
      split
      · exact modes_closeNamed b tag _
      · split
        · rfl
        · split
          · exact modes_closeNamed b tag _
          · split
            · rfl
            · exact (ih _).trans (modes_splitAtBlock ..)

end Modes

/-! ## What is open -/

section Scope

variable {b : Builder} {handle : Handle} {scope : Vocabulary.Scope} {tag : String}

/-- Elements that are not closed silently stay open. -/
theorem mem_stack_popImplied {except : String} (hmem : handle ∈ b.stack)
    (hstays : b.name handle ∉ Vocabulary.impliedEnds ∨ b.name handle = except) :
    handle ∈ (b.popImplied except).stack := by
  refine mem_dropWhile hmem ?_
  rcases hstays with hnot | rfl
  · simp [hnot]
  · simp

/-- What is in scope is open. -/
theorem exists_of_reaches {target : Handle → Bool} {handles : List Handle}
    (hreaches : b.reaches scope target handles = true) :
    ∃ handle ∈ handles, target handle = true := by
  induction handles with
  | nil => cases hreaches
  | cons first rest ih =>
      unfold reaches at hreaches
      split at hreaches
      next htarget => exact ⟨first, List.mem_cons_self, htarget⟩
      next =>
        split at hreaches
        next => cases hreaches
        next =>
          obtain ⟨handle, hmem, htarget⟩ := ih hreaches
          exact ⟨handle, List.mem_cons_of_mem _ hmem, htarget⟩

theorem exists_of_inScope (hscope : b.inScope scope tag = true) :
    ∃ handle ∈ b.stack, b.name handle = tag := by
  obtain ⟨handle, hmem, htarget⟩ := exists_of_reaches hscope
  rw [Bool.and_eq_true, beq_iff_eq] at htarget
  exact ⟨handle, hmem, htarget.2⟩

/-- A search goes on where others than its target have been closed. -/
theorem reaches_dropWhile {target closes : Handle → Bool} {handles : List Handle}
    (hreaches : b.reaches scope target handles = true)
    (hcloses : ∀ handle, closes handle = true → target handle = false) :
    b.reaches scope target (handles.dropWhile closes) = true := by
  induction handles with
  | nil => exact hreaches
  | cons first rest ih =>
      cases hfirst : closes first with
      | false => rwa [List.dropWhile_cons_of_neg (by simp [hfirst])]
      | true =>
          rw [List.dropWhile_cons_of_pos hfirst]
          unfold reaches at hreaches
          rw [hcloses first hfirst, if_neg Bool.false_ne_true] at hreaches
          split at hreaches
          · cases hreaches
          · exact ih hreaches

theorem reaches_congr {other : Builder} (hstore : other.store = b.store)
    (target : Handle → Bool) (handles : List Handle) :
    other.reaches scope target handles = b.reaches scope target handles := by
  induction handles with
  | nil => rfl
  | cons first rest ih =>
      have hlabel : other.label first = b.label first := congrArg (·.label first) hstore
      rw [reaches, reaches, ih, hlabel]

/-- An element that is not closed silently stays in scope. -/
theorem inScope_popImplied (hscope : b.inScope scope tag = true) (except : String)
    (hstays : tag ∉ Vocabulary.impliedEnds ∨ tag = except) :
    (b.popImplied except).inScope scope tag = true := by
  unfold inScope
  rw [reaches_congr (show (b.popImplied except).store = b.store from rfl)]
  refine reaches_dropWhile hscope fun handle hcloses => ?_
  rw [Bool.and_eq_true, bne_iff_ne] at hcloses
  have hne : b.name handle ≠ tag := by
    rintro rfl
    exact hstays.elim (· (List.contains_iff_mem.mp hcloses.1)) hcloses.2
  exact Bool.and_eq_false_iff.mpr (Or.inr (beq_false_of_ne hne))

/-- An element that has just been opened is in every scope. -/
theorem inScope_openElement (opened : Tag) :
    (b.openElement opened).inScope scope opened.name = true := by
  have hlabel := label_current_openLabel b (b.labelOf .html opened)
  have hcurrent : (b.openElement opened).current = b.store.cells.size :=
    congrArg (·.headD 0) (stack_openLabel b (b.labelOf .html opened))
  have hstack : (b.openElement opened).stack = b.store.cells.size :: b.stack := stack_openLabel ..
  change (b.openElement opened).label (b.openElement opened).current = _ at hlabel
  rw [hcurrent] at hlabel
  rw [inScope, hstack, reaches, hlabel]
  simp [labelOf]

end Scope

end Builder

end Winnow.Html
