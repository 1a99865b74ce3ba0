import Winnow.Proofs.Html.Rooted.Builder

/-!
# Closing elements by their names

In most modes an element is closed only when one of its name has been found open. Formatting
elements are never the root, so continuing them and splitting them at a block leaves it open.
-/

namespace Winnow.Html.Builder

namespace Careful

variable {root : Handle} {parts : List Handle} {b : Builder} (hb : b.Careful root parts)
include hb

theorem of_frame {other : Builder} (hframe : other.frame = b.frame) (hmode : other.mode = b.mode) :
    other.Careful root parts :=
  ⟨hb.toRooted.of_frame hframe, hmode ▸ hb.mode⟩

theorem goto {mode : Mode} (hmode : mode.closesByName = true) : (b.goto mode).Careful root parts :=
  ⟨hb.toRooted.of_frame rfl, hmode⟩

theorem expect (ok : Bool) : (b.expect ok).Careful root parts := by
  refine ⟨hb.toRooted.expect ok, ?_⟩
  unfold Builder.expect
  split
  · exact hb.mode
  · exact hb.mode

theorem attach {parent child : Handle} (hchild : child ∉ root :: parts)
    (hparent : (b.label parent).isElement = true) : (b.attach parent child).Careful root parts :=
  ⟨hb.toRooted.attach hchild hparent, hb.mode⟩

theorem create (label : Label) : (b.create label).1.Careful root parts :=
  ⟨hb.toRooted.create label, hb.mode⟩

theorem detach {handle : Handle} (hhandle : handle ∉ root :: parts) :
    Careful root parts { b with store := b.store.detach handle } := by
  refine ⟨hb.of_store rfl (hb.grounded.detach handle) (hb.hosts.detach hhandle)
    fun other _ => ?_, hb.mode⟩
  exact congrArg Label.tag (Store.label_detach ..)

/-- Elements are closed while the root stays open. -/
theorem close {stack : List Handle} (hsublist : stack.Sublist b.stack)
    (hstack : EndsIn root (IsInner b.store root) stack) :
    Careful root parts { b with stack := stack } :=
  ⟨hb.toRooted.close hsublist hstack, hb.mode⟩

theorem openLabel {label : Label} (hlabel : label.isElement = true) :
    (b.openLabel label).Careful root parts :=
  ⟨hb.toRooted.openLabel hlabel, (mode_openLabel b label).symm ▸ hb.mode⟩

theorem openElement {tag : Tag} (htag : tag.IsElement) : (b.openElement tag).Careful root parts :=
  hb.openLabel htag

theorem pop (hne : b.current ≠ root) : b.pop.Careful root parts := ⟨hb.toRooted.pop hne, hb.mode⟩

theorem openVoid {tag : Tag} (htag : tag.IsElement) : (b.openVoid tag).Careful root parts :=
  (hb.openElement htag).pop (hb.isInner_current_openLabel htag).2

theorem openForeign (space : Namespace) {tag : Tag} (htag : tag.IsElement) :
    (b.openForeign space tag).Careful root parts := by
  have hopened : (b.openLabel (b.labelOf space tag)).Careful root parts := hb.openLabel htag
  unfold Builder.openForeign
  dsimp only
  split
  · exact hopened.pop (hb.isInner_current_openLabel htag).2
  · exact hopened

theorem addText (text : String) : (b.addText text).Careful root parts :=
  ⟨hb.toRooted.addText text, (congrArg Builder.mode (addText_eq b text)).symm ▸ hb.mode⟩

theorem addMissing (handle : Handle) (attributes : Assoc String) :
    (b.addMissing handle attributes).Careful root parts :=
  ⟨hb.toRooted.addMissing handle attributes, hb.mode⟩

/-! ## Closing elements by name -/

theorem popTo {tags : List String} (hroot : "html" ∈ tags) : (b.popTo tags).Careful root parts :=
  ⟨hb.toRooted.popTo hroot, hb.mode⟩

theorem popImplied (except : String) : (b.popImplied except).Careful root parts :=
  ⟨hb.toRooted.popImplied except, hb.mode⟩

/-- Elements are closed up to one that is in scope and has one of the names. -/
theorem popThrough_of_inScope {tags : List String} (hroot : "html" ∉ tags)
    {scope : Vocabulary.Scope} {tag : String} (htag : tag ∈ tags)
    (hscope : b.inScope scope tag = true) : (b.popThrough tags).Careful root parts := by
  obtain ⟨handle, hmem, rfl⟩ := exists_of_inScope hscope
  exact ⟨hb.toRooted.popThrough hmem htag hroot, hb.mode⟩

/-! ## Modes -/

omit hb in
theorem closesByName_of_modeWithin {tag : String} {mode : Mode}
    (hmode : modeWithin tag = some mode) : mode.closesByName = true := by
  unfold modeWithin at hmode
  split at hmode
  all_goals cases hmode <;> rfl

theorem resetFrom (handles : List Handle) : (b.resetFrom handles).Careful root parts := by
  induction handles generalizing b with
  | nil => exact hb
  | cons handle outer ih =>
      cases outer with
      | nil => exact (hb.expect false).goto rfl
      | cons next rest =>
          unfold Builder.resetFrom
          dsimp only
          split
          · exact ih (hb.expect _)
          · split
            next mode hmode => exact (hb.expect _).goto (closesByName_of_modeWithin hmode)
            next => exact ih (hb.expect _)

theorem resetMode : b.resetMode.Careful root parts := hb.resetFrom _

/-! ## The list of formatting elements -/

/-- Entries may be dropped from the list of formatting elements. -/
theorem formatting_subset {formatting : List (Option Handle)}
    (hsubset : formatting ⊆ b.formatting) :
    Careful root parts { b with formatting := formatting } :=
  { hb with formatting := fun handle hmem => hb.formatting handle (hsubset hmem) }

theorem mark : b.mark.Careful root parts := by
  refine { hb with formatting := fun handle hmem => hb.formatting handle ?_ }
  exact (List.mem_cons.mp hmem).resolve_left (by simp)

theorem clearToMarker : b.clearToMarker.Careful root parts :=
  hb.formatting_subset
    ((List.drop_sublist _ _).trans (List.dropWhile_sublist _)).subset

theorem dropFourth (handle : Handle) : (b.dropFourth handle).Careful root parts := by
  unfold Builder.dropFourth
  dsimp only
  split
  · exact hb.formatting_subset List.erase_subset
  · exact hb

omit hb in
theorem dropFourth_eq (handle : Handle) :
    b.dropFourth handle = { b with formatting := (b.dropFourth handle).formatting } := by
  unfold Builder.dropFourth
  dsimp only
  split
  · rfl
  · rfl

/-- Elements other than the root and its parts may be put on the list of formatting elements. -/
theorem formatting_append (entries : List (Option Handle))
    (hentries : ∀ handle, some handle ∈ entries → IsFree b.store root parts handle) :
    Careful root parts { b with formatting := entries ++ b.formatting } := by
  refine { hb with formatting := fun handle hmem => ?_ }
  rcases List.mem_append.mp hmem with hnew | hold
  · exact hentries handle hnew
  · exact hb.formatting handle hold

theorem openFormatting {tag : Tag} (htag : tag.IsElement) :
    (b.openFormatting tag).Careful root parts := by
  have hnew : IsFree (b.openElement tag).store root parts (b.openElement tag).current :=
    hb.isFree_current_openLabel htag
  have hdropped := (hb.openElement htag).dropFourth (b.openElement tag).current
  refine hdropped.formatting_append [some _] fun handle hmem => ?_
  cases List.mem_singleton.mp hmem
  rw [dropFourth_eq]
  exact hnew

/-- Elements are opened again as copies, which are listed in place of them. -/
theorem reopen (handles : List Handle) (copies : List (Option Handle))
    (hhandles : ∀ handle ∈ handles, IsFree b.store root parts handle)
    (hcopies : ∀ handle, some handle ∈ copies → IsFree b.store root parts handle) :
    (b.reopen handles copies).1.Careful root parts ∧ ∀ handle,
      some handle ∈ (b.reopen handles copies).2 →
        IsFree (b.reopen handles copies).1.store root parts handle := by
  induction handles generalizing b copies with
  | nil => exact ⟨hb, hcopies⟩
  | cons handle rest ih =>
      have helement := (hhandles handle List.mem_cons_self).1.1
      have hkept : ∀ other, IsFree b.store root parts other →
          IsFree (b.openLabel (b.label handle)).store root parts other :=
        fun other hfree => (hfree.add (b.label handle)).of_label (label_place ..)
      refine ih (hb.openLabel helement) _
        (fun other hmem => hkept other (hhandles other (List.mem_cons_of_mem _ hmem)))
        fun other hmem => ?_
      rcases List.mem_cons.mp hmem with heq | hold
      · cases heq
        exact hb.isFree_current_openLabel helement
      · exact hkept other (hcopies other hold)

theorem reconstruct : b.reconstruct.Careful root parts := by
  have hclosed : ∀ handle ∈ ((b.formatting.takeWhile b.isClosed).filterMap id).reverse,
      IsFree b.store root parts handle := by
    intro handle hmem
    obtain ⟨entry, hentry, rfl⟩ := List.mem_filterMap.mp (List.mem_reverse.mp hmem)
    exact hb.formatting handle ((List.takeWhile_sublist _).subset hentry)
  obtain ⟨hreopened, hcopies⟩ :=
    hb.reopen _ [] hclosed fun handle hmem => (by cases hmem)
  exact (hreopened.formatting_subset (List.drop_sublist _ _).subset).formatting_append _ hcopies

/-! ## End tags of formatting elements -/

theorem closeNamed {tag : String} (htag : tag ≠ "html") (handles : List Handle)
    (hopen : handles ⊆ b.stack) : (b.closeNamed tag handles).Careful root parts := by
  induction handles with
  | nil => exact hb
  | cons handle outer ih =>
      unfold Builder.closeNamed
      dsimp only
      split
      next hname =>
        have hname : b.name handle = tag := beq_iff_eq.mp hname
        have hmem := mem_stack_popImplied (hopen List.mem_cons_self) (Or.inr hname)
        have hclosed := hb.popImplied tag
        exact hclosed.close (sublist_drop_dropWhile _ _)
          (hclosed.stack.drop_dropWhile hmem (by simp) (hb.ne_root hname htag))
      next =>
        split
        · exact hb
        · exact ih fun other hmem => hopen (List.mem_cons_of_mem _ hmem)

theorem endOther {tag : String} (htag : tag ≠ "html") : (b.endOther tag).Careful root parts :=
  hb.closeNamed htag _ fun _ hmem => hmem

end Careful

end Winnow.Html.Builder
