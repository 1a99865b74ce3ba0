import Mathlib.Data.List.Nodup
import Winnow.Proofs.Html.Nested.Builder

/-!
# Nesting at formatting elements

Formatting elements are loose, and where one is split at a block the copy of it stands directly
inside the block. Nothing but loose elements is closed on the way.
-/

namespace Winnow.Html.Builder

/-- A search that stops at an item ends there, whatever a search before it has closed. -/
theorem drop_dropWhile_dropWhile {closes : Handle → Bool} {item : Handle}
    (front outer : List Handle) (hstops : closes item = false) (hfront : item ∉ front) :
    (((front ++ item :: outer).dropWhile closes).dropWhile (· != item)).drop 1 = outer := by
  induction front with
  | nil =>
      rw [List.nil_append, List.dropWhile_cons_of_neg (by simp [hstops]),
        List.dropWhile_cons_of_neg (by simp)]
      rfl
  | cons first rest ih =>
      obtain ⟨hne, hrest⟩ := not_or.mp (List.mem_cons.not.mp hfront)
      rw [List.cons_append, List.dropWhile_cons]
      split
      · exact ih hrest
      · have hpassed : ∀ handle ∈ rest, (handle != item) = true := fun handle hmem => by
          simpa using fun heq : handle = item => hrest (heq ▸ hmem)
        rw [List.dropWhile_cons_of_pos (by simpa using Ne.symm hne),
          List.dropWhile_append_of_pos hpassed, List.dropWhile_cons_of_neg (by simp)]
        rfl

/-- What stands before an entry, the entry, and what stands after it. -/
theorem takeWhile_append_cons {item : Handle} {handles : List Handle} (hmem : item ∈ handles) :
    handles.takeWhile (· != item) ++ item :: (handles.dropWhile (· != item)).drop 1 = handles := by
  have hstops : item ∈ handles.dropWhile (· != item) := mem_dropWhile hmem (by simp)
  obtain ⟨first, rest, hrest⟩ := List.exists_cons_of_ne_nil (List.ne_nil_of_mem hstops)
  have hfirst : first = item := by
    have hhead := List.head?_dropWhile_not (· != item) handles
    rw [hrest] at hhead
    simpa using hhead
  conv_rhs => rw [← List.takeWhile_append_dropWhile (p := (· != item)) (l := handles), hrest]
  rw [hrest, hfirst]
  rfl

/-- An entry moves to the inside of another, and of those between them some are left out and some
are new. -/
theorem nodup_split {element block copy bound : Handle} {inner between kept outer : List Handle}
    (hnodup : (inner ++ block :: (between ++ element :: outer)).Nodup)
    (hbound : ∀ handle ∈ inner ++ block :: outer, handle < bound) (hkept : kept.Nodup)
    (hfrom : ∀ handle ∈ kept, handle ∈ between ∨ bound ≤ handle) (hcopy : bound ≤ copy)
    (hafter : ∀ handle ∈ kept, handle < copy) :
    (inner ++ copy :: block :: kept ++ outer).Nodup := by
  have hold : (inner ++ block :: outer).Nodup :=
    hnodup.sublist (.append_left (.cons_cons block
      ((List.sublist_cons_self element outer).trans (List.sublist_append_right between _))) inner)
  have hrest : ∀ handle ∈ inner ++ block :: outer, handle ∉ kept ∧ handle ≠ copy := by
    intro handle hmem
    have hlt := hbound handle hmem
    refine ⟨fun hin => ?_, Nat.ne_of_lt (Nat.lt_of_lt_of_le hlt hcopy)⟩
    rcases hfrom handle hin with hbetween | hsize
    · grind
    · exact Nat.lt_irrefl _ (Nat.lt_of_lt_of_le hlt hsize)
  have hperm : (inner ++ copy :: block :: kept ++ outer).Perm
      (copy :: (kept ++ (inner ++ block :: outer))) := by
    grind
  refine hperm.nodup_iff.mpr (List.nodup_cons.mpr ⟨fun hmem => ?_, ?_⟩)
  · rcases List.mem_append.mp hmem with hin | hin
    · exact Nat.lt_irrefl _ (hafter copy hin)
    · exact (hrest copy hin).2 rfl
  · exact List.nodup_append.mpr
      ⟨hkept, hold, fun handle hin other hmem heq => (hrest other hmem).1 (heq ▸ hin)⟩

/-! ## Sizes -/

section Content

variable (b : Builder)

theorem size_foldl_attach (target : Handle) (handles : List Handle) :
    (handles.foldl (fun b child => b.attach target child) b).store.cells.size =
      b.store.cells.size := by
  induction handles generalizing b with
  | nil => rfl
  | cons child rest ih => exact (ih _).trans (Store.size_append ..)

theorem size_foldl_removeChild (store : Store) (source : Handle) (handles : List Handle) :
    (handles.foldl (fun store child => store.removeChild source child) store).cells.size =
      store.cells.size := by
  induction handles generalizing store with
  | nil => rfl
  | cons child rest ih => exact (ih _).trans (Store.size_removeChild ..)

theorem size_moveContent (source target : Handle) :
    (b.moveContent source target).store.cells.size = b.store.cells.size :=
  (size_foldl_attach ..).trans (size_foldl_removeChild ..)

theorem size_placeIn (parent child : Handle) :
    (b.placeIn parent child).store.cells.size = b.store.cells.size := by
  unfold placeIn foster
  dsimp only
  split
  · split
    · exact (Store.size_insertBefore ..).trans (Store.size_detach ..)
    · exact (Store.size_append ..).trans (Store.size_detach ..)
  · exact (Store.size_append ..).trans (Store.size_detach ..)

end Content

/-- The element that has just been opened. -/
theorem current_openLabel (b : Builder) (label : Label) :
    (b.openLabel label).current < (b.openLabel label).store.cells.size ∧
      (b.openLabel label).name (b.openLabel label).current = label.tag := by
  rw [current, stack_openLabel, List.headD_cons, size_openLabel, name, label_openLabel, if_pos rfl]
  exact ⟨Nat.lt_succ_self _, rfl⟩

namespace Plain

variable {b : Builder} (hb : b.Plain)
include hb

/-- The links of nodes may change. -/
theorem of_links {other : Builder}
    (hsame : other = { b with store := other.store, strays := other.strays })
    (hsize : other.store.cells.size = b.store.cells.size)
    (hlabel : ∀ handle, other.label handle = b.label handle) : b.Grown other ∧ other.Plain := by
  have hgrown : b.Grown other :=
    ⟨Nat.le_of_eq hsize.symm, fun handle _ => congrArg Label.tag (hlabel handle)⟩
  exact ⟨hgrown, hb.of_grown hsame hgrown fun handle => hlabel handle ▸ hb.html handle⟩

theorem attach (parent child : Handle) :
    b.Grown (b.attach parent child) ∧ (b.attach parent child).Plain :=
  hb.of_links rfl (Store.size_append ..) fun _ => label_attach ..

theorem placeIn (parent child : Handle) :
    b.Grown (b.placeIn parent child) ∧ (b.placeIn parent child).Plain :=
  hb.of_links (placeIn_eq ..) (size_placeIn ..) fun _ => label_placeIn ..

theorem moveContent (source target : Handle) :
    b.Grown (b.moveContent source target) ∧ (b.moveContent source target).Plain :=
  hb.of_links (moveContent_eq ..) (size_moveContent ..) fun _ => label_moveContent ..

/-- Entries may be dropped from the list of formatting elements, and formatting elements put on
it. -/
theorem setFormatting {formatting : List (Option Handle)}
    (hentries : ∀ handle, some handle ∈ formatting → some handle ∈ b.formatting ∨
      handle < b.store.cells.size ∧ b.name handle ∈ formattingNames) :
    Plain { b with formatting := formatting } :=
  { hb with formatting := fun handle hmem =>
      (hentries handle hmem).elim (hb.formatting handle) id }

/-- A copy of an element is a new node of its name. -/
theorem copy (handle : Handle) :
    (b.create (b.label handle)).1.Plain ∧ b.Grown (b.create (b.label handle)).1 ∧
      (b.create (b.label handle)).2 < (b.create (b.label handle)).1.store.cells.size ∧
        (b.create (b.label handle)).1.name (b.create (b.label handle)).2 = b.name handle := by
  refine ⟨hb.create (hb.html handle), grown_create b _, ?_, ?_⟩
  · rw [size_create]
    exact Nat.lt_succ_self _
  · rw [name, label_create]
    exact congrArg Label.tag (if_pos rfl)

/-- A node that is not open yet replaces an open element, and an entry of the list. -/
theorem replace (handle : Handle) {copy : Handle} (position : Nat)
    (hlt : copy < b.store.cells.size) (hname : b.name copy ∈ formattingNames)
    (hfresh : copy ∉ b.stack) :
    Plain { b with
      formatting := b.formatting.set position (some copy)
      stack := b.stack.map fun other => if other = handle then copy else other } := by
  refine { hb.setFormatting fun other hmem => ?_ with
    stack := fun other hmem => ?_
    nodup := List.Nodup.map_on (fun first hfirst second hsecond heq => ?_) hb.nodup }
  · rcases List.mem_or_eq_of_mem_set hmem with hold | heq
    · exact Or.inl hold
    · cases heq
      exact Or.inr ⟨hlt, hname⟩
  · obtain ⟨old, hold, rfl⟩ := List.mem_map.mp hmem
    dsimp only
    split
    · exact hlt
    · exact hb.stack old hold
  · grind

/-- What a block holds is moved into a copy of an element, and the copy into the block. -/
theorem wrapContent {element : Handle} (block : Handle) {created : Builder × Handle}
    (hcopy : b.create (b.label element) = created) {wrapped : Builder}
    (hwrap : (created.1.moveContent block created.2).attach block created.2 = wrapped) :
    wrapped.Plain ∧ b.Grown wrapped ∧ wrapped.modes = b.modes ∧
      created.2 < wrapped.store.cells.size ∧ wrapped.name created.2 = b.name element := by
  obtain ⟨hcreated, hgrown, hlt, hname⟩ := hb.copy element
  have hmodes : (b.create (b.label element)).1.modes = b.modes := rfl
  rw [hcopy] at hcreated hgrown hlt hname hmodes
  obtain ⟨hmovedGrown, hmoved⟩ := hcreated.moveContent block created.2
  obtain ⟨hattachedGrown, hattached⟩ := hmoved.attach block created.2
  have hsame : ((created.1.moveContent block created.2).attach block created.2).modes =
      b.modes := by
    rw [modes_attach, modes_moveContent, hmodes]
  rw [hwrap] at hattachedGrown hattached hsame
  have hlater := hmovedGrown.trans hattachedGrown
  exact ⟨hattached, hgrown.trans hlater, hsame, Nat.lt_of_lt_of_le hlt hlater.size,
    (hlater.name _ hlt).trans hname⟩

/-- Elements are opened again as copies, which are listed in place of them. -/
theorem reopen (handles : List Handle) (copies : List (Option Handle))
    (hhandles : ∀ handle ∈ handles,
      handle < b.store.cells.size ∧ b.name handle ∈ formattingNames)
    (hcopies : ∀ handle, some handle ∈ copies →
      handle < b.store.cells.size ∧ b.name handle ∈ formattingNames) :
    (b.reopen handles copies).1.Plain ∧ (b.reopen handles copies).1.modes = b.modes ∧
      (b.reopen handles copies).1.stackNames = (handles.map b.name).reverse ++ b.stackNames ∧
        ∀ handle, some handle ∈ (b.reopen handles copies).2 →
          handle < (b.reopen handles copies).1.store.cells.size ∧
            (b.reopen handles copies).1.name handle ∈ formattingNames := by
  induction handles generalizing b copies with
  | nil => exact ⟨hb, rfl, rfl, hcopies⟩
  | cons handle rest ih =>
      have hopened : (b.openLabel (b.label handle)).Plain := hb.openLabel (hb.html handle)
      have hgrown := grown_openLabel b (b.label handle)
      have hrest : ∀ other ∈ rest, other < b.store.cells.size := fun other hmem =>
        (hhandles other (List.mem_cons_of_mem _ hmem)).1
      obtain ⟨hplain, hmodes, hnames, hnew⟩ := ih hopened
        (some (b.openLabel (b.label handle)).current :: copies)
        (fun other hmem => hgrown.keeps (hhandles other (List.mem_cons_of_mem _ hmem)))
        fun other hmem => by
          rcases List.mem_cons.mp hmem with heq | hold
          · cases heq
            obtain ⟨hlt, hname⟩ := current_openLabel b (b.label handle)
            exact ⟨hlt, hname.symm ▸ (hhandles handle List.mem_cons_self).2⟩
          · exact hgrown.keeps (hcopies other hold)
      refine ⟨hplain, hmodes.trans (modes_openLabel b _), hnames.trans ?_, hnew⟩
      rw [hgrown.map_name hrest, hb.stackNames_openLabel, List.map_cons, List.reverse_cons,
        List.append_assoc]
      rfl

/-- Closed formatting elements are continued inside what is open. -/
theorem reconstruct : b.reconstruct.Plain ∧ b.reconstruct.modes = b.modes ∧
    ∃ names, (∀ name ∈ names, name ∈ formattingNames) ∧
      b.reconstruct.stackNames = names ++ b.stackNames := by
  have hclosed : ∀ handle ∈ ((b.formatting.takeWhile b.isClosed).filterMap id).reverse,
      handle < b.store.cells.size ∧ b.name handle ∈ formattingNames := by
    intro handle hmem
    obtain ⟨entry, hentry, rfl⟩ := List.mem_filterMap.mp (List.mem_reverse.mp hmem)
    exact hb.formatting handle ((List.takeWhile_sublist _).subset hentry)
  obtain ⟨hplain, hmodes, hnames, hcopies⟩ :=
    hb.reopen _ [] hclosed fun handle hmem => (by cases hmem)
  refine ⟨hplain.setFormatting fun handle hmem => ?_, hmodes, _, fun name hmem => ?_, hnames⟩
  · rcases List.mem_append.mp hmem with hnew | hold
    · exact Or.inr (hcopies handle hnew)
    · exact Or.inl (List.drop_subset _ _ hold)
  · obtain ⟨handle, hhandle, rfl⟩ := List.mem_map.mp (List.mem_reverse.mp hmem)
    exact (hclosed handle hhandle).2

end Plain

namespace Inside

variable {holder : String} {modes : Mode × Mode × Mode} {b : Builder} (hb : b.Inside holder modes)
include hb

/-! ## The list of formatting elements -/

/-- Entries may be dropped from the list of formatting elements, and formatting elements put on
it. -/
theorem setFormatting {formatting : List (Option Handle)}
    (hentries : ∀ handle, some handle ∈ formatting → some handle ∈ b.formatting ∨
      handle < b.store.cells.size ∧ b.name handle ∈ formattingNames) :
    Inside holder modes { b with formatting := formatting } :=
  ⟨hb.toPlain.setFormatting hentries, hb.nested, hb.modes_eq⟩

theorem mark : b.mark.Inside holder modes :=
  hb.setFormatting fun handle hmem =>
    Or.inl ((List.mem_cons.mp hmem).resolve_left (by simp))

theorem clearToMarker : b.clearToMarker.Inside holder modes :=
  hb.setFormatting fun _ hmem =>
    Or.inl (((List.drop_sublist _ _).trans (List.dropWhile_sublist _)).subset hmem)

theorem dropFourth (handle : Handle) : (b.dropFourth handle).Inside holder modes := by
  unfold Builder.dropFourth
  dsimp only
  split
  · exact hb.setFormatting fun _ hmem => Or.inl (List.erase_subset hmem)
  · exact hb

/-! ## Opening elements -/

section Flow

variable (hflow : holder ∉ ["colgroup", "select"])
include hflow

theorem nested_loose {tag : String} (htag : IsLoose tag) :
    ∃ tight, Nested holder tight (tag :: b.stackNames) := by
  obtain ⟨tight, hnested⟩ := hb.nested
  simp only [List.mem_cons, List.not_mem_nil, or_false, not_or] at hflow
  exact ⟨_, hnested.loose htag hflow.1 fun hselect => absurd hselect hflow.2⟩

theorem openElement {tag : Tag} (htag : IsLoose tag.name) :
    (b.openElement tag).Inside holder modes :=
  hb.openLabel rfl (hb.nested_loose hflow htag)

theorem openFormatting {tag : Tag} (htag : tag.name ∈ formattingNames) :
    (b.openFormatting tag).Inside holder modes := by
  have hopened : (b.openElement tag).Inside holder modes :=
    hb.openElement hflow (isLoose_of_mem_formattingNames htag)
  have hdropped := hopened.dropFourth (b.openElement tag).current
  refine hdropped.setFormatting fun handle hmem => ?_
  rcases List.mem_cons.mp hmem with heq | hold
  · cases heq
    rw [Careful.dropFourth_eq]
    obtain ⟨hlt, hname⟩ := current_openLabel b (b.labelOf .html tag)
    exact Or.inr ⟨hlt, hname ▸ htag⟩
  · exact Or.inl hold

theorem reconstruct : b.reconstruct.Inside holder modes := by
  obtain ⟨hplain, hmodes, names, hformatting, hnames⟩ := hb.toPlain.reconstruct
  refine ⟨hplain, ?_, hmodes.trans hb.modes_eq⟩
  obtain ⟨tight, hnested⟩ := hb.nested
  rw [hnames]
  exact ⟨tight, hnested.formatting hformatting hflow⟩

end Flow

/-! ## Closing the innermost element of a name -/

/-- Only loose elements are passed over or closed. -/
theorem closeNamed {tag : String} (htag : tag ≠ holder) (front handles : List Handle)
    (hstack : b.stack = front ++ handles)
    (hfront : ∀ handle ∈ front, IsLoose (b.name handle) ∧ b.name handle ≠ tag) :
    (b.closeNamed tag handles).Inside holder modes := by
  -- The elements in front have been passed over: they are loose and have another name.
  induction handles generalizing front with
  | nil => exact hb
  | cons handle outer ih =>
      obtain ⟨tight, hnested⟩ := hb.nested
      rw [stackNames, hstack, List.map_append, List.map_cons] at hnested
      have hloose : ∀ name ∈ front.map b.name, IsLoose name := by
        intro name hmem
        obtain ⟨other, hother, rfl⟩ := List.mem_map.mp hmem
        exact (hfront other hother).1
      obtain ⟨under, hunder, -⟩ := hnested.drop hloose
      unfold Builder.closeNamed
      dsimp only
      split
      next hfound =>
        have hname : b.name handle = tag := beq_iff_eq.mp hfound
        have hhandle : IsLoose (b.name handle) := by
          by_contra hmodal
          exact htag (hname.symm.trans (hunder.holder_eq hmodal).symm)
        obtain ⟨below, hbelow, -⟩ := hunder.tail hhandle
        have hnot : handle ∉ front := fun hmem => (hfront handle hmem).2 hname
        have hclosed : ((b.popImplied tag).stack.dropWhile (· != handle)).drop 1 = outer := by
          rw [Builder.popImplied, hstack]
          refine drop_dropWhile_dropWhile front outer ?_ hnot
          rw [hname, bne_self_eq_false, Bool.and_false]
        rw [hclosed]
        refine hb.close ?_ ⟨below, hbelow⟩
        rw [hstack]
        exact (List.sublist_cons_self handle outer).trans (List.sublist_append_right front _)
      next hother =>
        split
        next => exact hb
        next hspecial =>
          have hhandle : IsLoose (b.name handle) := by
            refine isLoose_of_not_special ?_
            rw [← hb.html handle]
            exact Bool.not_eq_true _ ▸ hspecial
          refine ih (front ++ [handle]) (by rw [hstack, List.append_assoc]; rfl) ?_
          intro other hmem
          rcases List.mem_append.mp hmem with hmem | hmem
          · exact hfront other hmem
          · obtain rfl := List.mem_singleton.mp hmem
            exact ⟨hhandle, fun heq => hother (beq_iff_eq.mpr heq)⟩

theorem endOther {tag : String} (htag : tag ≠ holder) : (b.endOther tag).Inside holder modes :=
  hb.closeNamed htag [] b.stack rfl fun _ hmem => by cases hmem

end Inside

/-! ## Splitting a formatting element -/

/-- What is on the way from a block out to a formatting element is closed or replaced by copies. -/
theorem Plain.climb {b : Builder} (hb : b.Plain) (block : Handle) (count : Nat)
    (between front : List Handle) (node : Handle) (later : Nat)
    (hopen : ∀ handle ∈ front ++ between, handle < b.store.cells.size)
    (hnodup : (front ++ between).Nodup) :
    let chain := Builder.climb block count between
      { builder := b, between := front, node := node, later := later }
    chain.builder.Plain ∧ b.Grown chain.builder ∧ chain.builder.modes = b.modes ∧
      (∀ handle ∈ chain.between, handle < chain.builder.store.cells.size) ∧
        (chain.between.map chain.builder.name).Sublist ((front ++ between).map b.name) ∧
          chain.between.Nodup ∧ ∀ handle ∈ chain.between,
            handle ∈ front ++ between ∨ b.store.cells.size ≤ handle := by
  -- In front stands what has been climbed past, in the copies that replace it.
  induction count generalizing b between front node later with
  | zero =>
      exact ⟨hb, .refl b, rfl, hopen, List.Sublist.refl _, hnodup, fun _ hmem => Or.inl hmem⟩
  | succ count ih =>
      cases between with
      | nil =>
          rw [List.append_nil] at hopen hnodup ⊢
          exact ⟨hb, .refl b, rfl, hopen, List.Sublist.refl _, hnodup, fun _ hmem => Or.inl hmem⟩
      | cons handle outer =>
          have hhandle := hopen handle (List.mem_append_right _ List.mem_cons_self)
          have hfewer : (front ++ outer).Sublist (front ++ handle :: outer) :=
            List.Sublist.append_left (List.sublist_cons_self _ _) _
          unfold Builder.climb
          dsimp only
          split
          next =>
            obtain ⟨hplain, hgrown, hmodes, hlt, hnames, hdistinct, hfrom⟩ :=
              ih (hb.close List.erase_sublist) outer front node later
                (fun other hmem => hopen other (hfewer.subset hmem)) (hnodup.sublist hfewer)
            exact ⟨hplain, ⟨hgrown.size, hgrown.name⟩, hmodes, hlt, hnames.trans (hfewer.map _),
              hdistinct, fun other hmem => (hfrom other hmem).imp_left (hfewer.subset ·)⟩
          next position hposition =>
            -- The copy is named as the formatting element that it replaces.
            have hentry : some handle ∈ b.formatting := by
              obtain ⟨hlt, hfound, -⟩ := List.idxOf?_eq_some_iff.mp hposition
              exact hfound ▸ List.getElem_mem hlt
            obtain ⟨hcreated, hgrown, hcopy, hname⟩ := hb.copy handle
            have hsame : (b.create (b.label handle)).1.modes = b.modes := rfl
            have hnew : (b.create (b.label handle)).2 = b.store.cells.size := rfl
            have hheld : (b.create (b.label handle)).1.stack = b.stack := rfl
            generalize b.create (b.label handle) = created
              at hcreated hgrown hcopy hname hsame hnew hheld ⊢
            have hfresh : created.2 ∉ created.1.stack := fun hmem =>
              Nat.lt_irrefl _ (hnew ▸ hb.stack _ (hheld ▸ hmem))
            have hreplaced := hcreated.replace handle position hcopy
              (hname.symm ▸ (hb.formatting handle hentry).2) hfresh
            obtain ⟨hattached, hplain⟩ := hreplaced.attach created.2 node
            have hcopied := (hattached.name _ hcopy).trans hname
            have hroom := Nat.lt_of_lt_of_le hcopy hattached.size
            have hkept := hgrown.trans ⟨hattached.size, hattached.name⟩
            generalize hnext : Builder.attach _ created.2 node = attached
              at hplain hcopied hroom hkept ⊢
            replace hsame : attached.modes = b.modes := hnext ▸ hsame
            have hfront : ∀ other ∈ front, other < b.store.cells.size :=
              fun other hmem => hopen other (List.mem_append_left _ hmem)
            have houter : ∀ other ∈ outer, other < b.store.cells.size :=
              fun other hmem => hopen other (hfewer.subset (List.mem_append_right _ hmem))
            have hstill : ∀ other ∈ front ++ [created.2] ++ outer,
                other < attached.store.cells.size := by
              intro other hmem
              rw [List.append_assoc, List.mem_append, List.singleton_append, List.mem_cons] at hmem
              rcases hmem with hold | rfl | hold
              · exact Nat.lt_of_lt_of_le (hfront other hold) hkept.size
              · exact hroom
              · exact Nat.lt_of_lt_of_le (houter other hold) hkept.size
            have hothers : ∀ other ∈ front ++ outer, other ≠ created.2 := fun other hmem heq =>
              Nat.lt_irrefl _ (hnew ▸ heq ▸ hopen other (hfewer.subset hmem))
            have hapart : (front ++ [created.2] ++ outer).Nodup := by
              have hrest := hnodup.sublist hfewer
              grind
            obtain ⟨hclimbed, hmore, hmodes, hlt, hnames, hdistinct, hfrom⟩ :=
              ih hplain outer (front ++ [created.2]) created.2
                (if node = block then position - 1 else later) hstill hapart
            have hsameNames : (front ++ [created.2] ++ outer).map attached.name =
                (front ++ handle :: outer).map b.name := by
              simp [hcopied, ← hkept.map_name hfront, ← hkept.map_name houter]
            refine ⟨hclimbed, hkept.trans hmore, hmodes.trans hsame, hlt, hsameNames ▸ hnames,
              hdistinct, fun other hmem => ?_⟩
            rcases hfrom other hmem with hold | hlater
            · have hsize := Nat.le_of_eq hnew.symm
              grind
            · exact Or.inr (Nat.le_trans hkept.size hlater)

namespace Inside

variable {holder : String} {modes : Mode × Mode × Mode} {b : Builder} (hb : b.Inside holder modes)
  (hflow : holder ∉ ["colgroup", "select"])
include hb hflow

/-- A formatting element is split at the outermost block inside it. Its copy inside the block
leaves the rest as tight as it is. -/
theorem splitAtBlock {element block : Handle} {inner between outer : List Handle}
    (hstack : b.stack = inner ++ block :: (between ++ element :: outer))
    (helement : b.name element ∈ formattingNames)
    (hbetween : ∀ handle ∈ between, IsLoose (b.name handle)) :
    (b.splitAtBlock element block inner between outer).Inside holder modes ∧
      b.Grown (b.splitAtBlock element block inner between outer) := by
  have hopen : ∀ handle ∈ inner ++ block :: (between ++ element :: outer),
      handle < b.store.cells.size := fun handle hmem => hb.stack handle (hstack ▸ hmem)
  have hinside : ∀ handle ∈ between, handle < b.store.cells.size :=
    fun handle hmem => hopen handle (by simp [hmem])
  unfold Builder.splitAtBlock
  dsimp only
  -- Each stage is generalized once it is known to have the nodes of the stage before.
  have hdistinct : (inner ++ block :: (between ++ element :: outer)).Nodup := hstack ▸ hb.nodup
  obtain ⟨hchain, hgrown, hmodes, hlt, hnames, hapart, hfrom⟩ :=
    hb.toPlain.climb block 3 between [] block ((b.formatting.idxOf? (some element)).getD 0) hinside
      (by grind)
  generalize Builder.climb block 3 between _ = chain
    at hchain hgrown hmodes hlt hnames hapart hfrom ⊢
  obtain ⟨hplacedGrown, hplaced⟩ := hchain.placeIn (outer.headD 0) chain.node
  have hplacedModes : (chain.builder.placeIn (outer.headD 0) chain.node).modes = b.modes := by
    rw [placeIn_eq]
    exact hmodes
  generalize chain.builder.placeIn (outer.headD 0) chain.node = placed
    at hplacedGrown hplaced hplacedModes ⊢
  have hnew : (placed.create (placed.label element)).2 = placed.store.cells.size := rfl
  generalize hcopy : placed.create (placed.label element) = created at hnew ⊢
  generalize hwrap : Builder.attach _ block created.2 = wrapped
  obtain ⟨hwrapped, hwrappedGrown, hwrappedModes, hroom, hname⟩ :=
    hplaced.wrapContent block hcopy hwrap
  have hlater := hplacedGrown.trans hwrappedGrown
  have hall := hgrown.trans hlater
  have hcopied : wrapped.name created.2 = b.name element :=
    hname.trans ((hgrown.trans hplacedGrown).name _ (hopen element (by simp)))
  refine ⟨⟨{ hwrapped with
    stack := fun handle hmem => ?_
    nodup := ?_
    formatting := fun handle hmem => ?_ }, ?_,
    hwrappedModes.trans (hplacedModes.trans hb.modes_eq)⟩, ⟨hall.size, hall.name⟩⟩
  · rw [List.append_assoc, List.mem_append, List.cons_append, List.cons_append, List.mem_cons,
      List.mem_cons, List.mem_append] at hmem
    rcases hmem with hmem | rfl | rfl | hmem | hmem
    · exact Nat.lt_of_lt_of_le (hopen handle (by simp [hmem])) hall.size
    · exact hroom
    · exact Nat.lt_of_lt_of_le (hopen handle (by simp)) hall.size
    · exact Nat.lt_of_lt_of_le (hlt handle hmem) hlater.size
    · exact Nat.lt_of_lt_of_le (hopen handle (by simp [hmem])) hall.size
  · refine nodup_split hdistinct (fun handle hmem => hopen handle ?_) hapart hfrom
      (hnew ▸ (hgrown.trans hplacedGrown).size) fun handle hmem =>
        hnew ▸ Nat.lt_of_lt_of_le (hlt handle hmem) hplacedGrown.size
    grind
  · rcases List.eq_or_mem_of_mem_insertIdx hmem with heq | hold
    · cases heq
      exact ⟨hroom, hcopied ▸ helement⟩
    · exact hwrapped.formatting handle (List.mem_of_mem_erase hold)
  · have hsameNames :
        (inner ++ created.2 :: block :: chain.between ++ outer).map wrapped.name =
          inner.map b.name ++ b.name element :: b.name block ::
            (chain.between.map chain.builder.name ++ outer.map b.name) := by
      have hinner := hall.map_name fun handle (hmem : handle ∈ inner) =>
        hopen handle (by simp [hmem])
      have houter := hall.map_name fun handle (hmem : handle ∈ outer) =>
        hopen handle (by simp [hmem])
      simp [hcopied, hall.name block (hopen block (by simp)), ← hinner, ← houter,
        ← hlater.map_name hlt]
    change ∃ tight, Nested holder tight
      ((inner ++ created.2 :: block :: chain.between ++ outer).map wrapped.name)
    rw [hsameNames]
    obtain ⟨tight, hnested⟩ := hb.nested
    rw [stackNames, hstack, List.map_append, List.map_cons, List.map_append, List.map_cons]
      at hnested
    exact hnested.split hflow hnames helement fun tag hmem => by
      obtain ⟨handle, hhandle, rfl⟩ := List.mem_map.mp hmem
      exact hbetween handle hhandle

omit hb hflow in
theorem store_closeNamed (b : Builder) (tag : String) (handles : List Handle) :
    (b.closeNamed tag handles).store = b.store := by
  induction handles with
  | nil => rfl
  | cons handle outer ih =>
      unfold Builder.closeNamed
      dsimp only
      split
      · rfl
      · split
        · rfl
        · exact ih

theorem endFormattingIn {tag : String} (htag : tag ∈ formattingNames) (rounds : Nat) :
    (b.endFormattingIn tag rounds).Inside holder modes ∧
      b.Grown (b.endFormattingIn tag rounds) := by
  induction rounds generalizing b with
  | zero => exact ⟨hb, .refl b⟩
  | succ rounds ih =>
      obtain ⟨tight, hnested⟩ := hb.nested
      have hother : (b.endOther tag).Inside holder modes ∧ b.Grown (b.endOther tag) := by
        refine ⟨hb.endOther ?_, .of_store (store_closeNamed b tag b.stack)⟩
        exact (isLoose_of_mem_formattingNames htag).ne hnested.not_isLoose_holder
      unfold Builder.endFormattingIn
      dsimp only
      split
      next => exact hother
      next element hnamed =>
        have hname : b.name element = tag := by
          have hfound := List.find?_some hnamed
          exact beq_iff_eq.mp hfound
        split
        next =>
          exact ⟨hb.setFormatting fun _ hmem => Or.inl (List.erase_subset hmem), .of_store rfl⟩
        next hopen =>
          have hopen : element ∈ b.stack := by simpa using hopen
          have hstack := takeWhile_append_cons hopen
          have hclosed : ((b.stack.dropWhile (· != element)).drop 1).Sublist b.stack :=
            sublist_drop_dropWhile _ _
          generalize b.stack.takeWhile (· != element) = inside at hstack ⊢
          generalize (b.stack.dropWhile (· != element)).drop 1 = outer at hstack hclosed ⊢
          have hloose : ∀ handle, Vocabulary.isSpecial (b.label handle).space
              (b.label handle).tag = false → IsLoose (b.name handle) := fun handle hspecial =>
            isLoose_of_not_special (hb.html handle ▸ hspecial)
          split
          · exact hother
          · split
            next hnone =>
              refine ⟨?_, .of_store rfl⟩
              have hinside : ∀ name ∈ (inside ++ [element]).map b.name, IsLoose name := by
                intro name hmem
                obtain ⟨handle, hhandle, rfl⟩ := List.mem_map.mp hmem
                rcases List.mem_append.mp hhandle with hhandle | hhandle
                · refine hloose handle (Bool.not_eq_true _ ▸ ?_)
                  exact List.find?_eq_none.mp hnone handle (List.mem_reverse.mpr hhandle)
                · obtain rfl := List.mem_singleton.mp hhandle
                  exact hname ▸ isLoose_of_mem_formattingNames htag
              rw [stackNames, ← hstack, ← List.singleton_append, ← List.append_assoc,
                List.map_append] at hnested
              obtain ⟨under, hunder, -⟩ := hnested.drop hinside
              exact (hb.close hclosed ⟨under, hunder⟩).setFormatting fun _ hmem =>
                Or.inl (List.erase_subset hmem)
            next block hblock =>
              obtain ⟨-, after, before, hsplit, hafter⟩ := List.find?_eq_some_iff_append.mp hblock
              have hinside : inside = before.reverse ++ block :: after.reverse := by
                rw [← List.reverse_reverse inside, hsplit]
                simp
              have hnodup : (inside ++ element :: outer).Nodup := hstack ▸ hb.nodup
              rw [hinside] at hnodup
              have hpassed : ∀ handle ∈ before.reverse, (handle != block) = true := by
                grind
              -- The outermost block is met once, so nothing outside it is a block.
              have hbetween : (inside.dropWhile (· != block)).drop 1 = after.reverse := by
                rw [hinside, List.dropWhile_append_of_pos hpassed,
                  List.dropWhile_cons_of_neg (by simp)]
                rfl
              have hinner : inside.takeWhile (· != block) = before.reverse := by
                rw [hinside, List.takeWhile_append_of_pos hpassed,
                  List.takeWhile_cons_of_neg (by simp), List.append_nil]
              rw [hbetween, hinner]
              have hwhole : b.stack =
                  before.reverse ++ block :: (after.reverse ++ element :: outer) := by
                rw [← hstack, hinside, List.append_assoc, List.cons_append]
              obtain ⟨hsplitted, hgrown⟩ := hb.splitAtBlock hflow hwhole
                (hname.symm ▸ htag) fun handle hmem => hloose handle
                  (by simpa using hafter handle (List.mem_reverse.mp hmem))
              obtain ⟨hended, hmore⟩ := ih hsplitted
              exact ⟨hended, hgrown.trans hmore⟩

theorem endFormatting {tag : String} (htag : tag ∈ formattingNames) :
    (b.endFormatting tag).Inside holder modes ∧ b.Grown (b.endFormatting tag) :=
  hb.endFormattingIn hflow htag 8

end Inside

end Winnow.Html.Builder
