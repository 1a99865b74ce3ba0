import Winnow.Proofs.Html.Construction.Opening
import Winnow.Proofs.Html.Rooted.Supplied

/-!
# The root through the moves

Every move leaves the root open. Edits close elements only after one of their name has been found
open, and so do the moves in the body; in the head and in raw text there is enough open for what
they close. What is put into the head does not change what else is open.
-/

namespace Winnow.Html

/-- Does a token open an element, if it is a start tag, and one of a frame set only if there may
be frame sets? -/
def Token.Opens (frames : Bool) : Token → Prop
  | .startTag tag => tag.IsElement ∧ (tag.name = "frameset" → frames = true)
  | _ => True

namespace Builder

/-! ## Elements put into the head -/

theorem name_of_find? {b : Builder} {tag : String} {handle : Handle} {handles : List Handle}
    (hfind : handles.find? (b.name · == tag) = some handle) : b.name handle = tag := by
  simpa using List.find?_some hfind

/-- Open an element in another one than the innermost. -/
def openIn (b : Builder) (parent : Handle) (label : Label) : Builder :=
  { (b.create label).1.attach parent b.store.cells.size with
    stack := b.store.cells.size :: b.stack }

section OpenIn

variable (b : Builder) (parent : Handle) (label : Label)

theorem headElement_openIn : (b.openIn parent label).headElement = b.headElement := by
  rw [openIn, attach, create]

theorem mode_openIn : (b.openIn parent label).mode = b.mode := by
  rw [openIn, attach, create]

theorem textReturn_openIn : (b.openIn parent label).textReturn = b.textReturn := by
  rw [openIn, attach, create]

end OpenIn

theorem label_openIn_of_lt (b : Builder) (parent : Handle) (label : Label) {handle : Handle}
    (hlt : handle < b.store.cells.size) : (b.openIn parent label).label handle = b.label handle :=
  (Store.label_append ..).trans (Store.label_add_of_lt hlt label)

theorem label_openIn_self (b : Builder) (parent : Handle) (label : Label) :
    (b.openIn parent label).label b.store.cells.size = label :=
  (Store.label_append ..).trans ((Store.label_add ..).trans (if_pos rfl))

theorem Rooted.openIn {root : Handle} {parts : List Handle} {b : Builder} (hb : b.Rooted root parts)
    {parent : Handle} (hparent : (b.label parent).isElement = true) (label : Label)
    (hlabel : label.isElement = true) : (b.openIn parent label).Rooted root parts := by
  have hhost : ((b.create label).1.label parent).isElement = true :=
    Store.isElement_add hparent label
  have hattached := (hb.create label).attach hb.size_not_mem hhost
  have hnew : IsFree (b.openIn parent label).store root parts b.store.cells.size :=
    (hb.isFree_create label hlabel).of_label (Store.label_append ..)
  exact { hattached with
    stack := hattached.stack.cons hnew.1
    shallow := hattached.shallow.cons hnew.2 }

/-- In the head nothing is moved out of a table. -/
theorem openElement_in_head {b : Builder} {head : Handle} (hname : b.name head = "head")
    (hlt : head < b.store.cells.size) (tag : Tag) :
    openElement { b with stack := head :: b.stack } tag =
      { b.openIn head (b.labelOf .html tag) with
        stack := b.store.cells.size :: head :: b.stack } := by
  have hplace : ∀ label,
      (create { b with stack := head :: b.stack } label).1.misplaces = false := by
    intro label
    have hcurrent : (create { b with stack := head :: b.stack } label).1.currentName = "head" :=
      (congrArg Label.tag (Store.label_add_of_lt hlt label)).trans hname
    rw [misplaces, hcurrent]
    exact Bool.and_false _
  unfold openElement openLabel
  dsimp only
  rw [place, hplace, if_neg Bool.false_ne_true]
  rfl

/-- The innermost open head is closed around what has been opened in it. -/
theorem startIntoHead_of_stack {b opened : Builder} {tag : Tag} {head : Handle}
    {stack front rest : List Handle} (hreopened : b.headElement.toList ++ b.stack = stack)
    (hstart : startInHead { b with stack := stack } tag = opened.done)
    (hstack : opened.stack = front ++ head :: rest)
    (hfront : ∀ handle ∈ front, opened.name handle ≠ "head")
    (hhead : opened.name head = "head") :
    b.startIntoHead tag = { opened with stack := front ++ rest } := by
  have hfind : opened.stack.find? (opened.name · == "head") = some head := by
    rw [hstack, List.find?_append, List.find?_eq_none.mpr fun handle hmem => by
      simpa using hfront handle hmem, List.find?_cons_of_pos (by simpa using hhead)]
    rfl
  have hnot : head ∉ front := fun hmem => hfront head hmem hhead
  have herase : opened.stack.erase head = front ++ rest := by
    rw [hstack, List.erase_append_right _ hnot, List.erase_cons_head]
  unfold Builder.startIntoHead
  rw [hreopened, hstart]
  dsimp only [done]
  rw [hfind]
  dsimp only
  rw [herase]

/-- What stands after the head is put into it, and the head is closed around it. -/
theorem startIntoHead_eq {b : Builder} {head : Handle} (hhead : b.headElement = some head)
    (hname : b.name head = "head") (hlt : head < b.store.cells.size) {tag : Tag}
    (htag : tag.name ∈ headNames) :
    (∃ model ∈ [ContentModel.escapable, .raw, .script],
      b.startIntoHead tag = { b.openIn head (b.labelOf .html tag) with
        request := some model, textReturn := b.mode, mode := .text }) ∨
      b.startIntoHead tag = (b.openIn head (b.labelOf .html tag)).pop := by
  have hknown : ∀ name ∈ headNames, name ∈ headContent ∧ name ≠ "head" := by decide
  obtain ⟨hcontent, hother⟩ := hknown tag.name htag
  have hopened := openElement_in_head hname hlt tag
  -- The names are stated of the nodes, which later changes of the frame leave alone.
  have hfound : ((b.openIn head (b.labelOf .html tag)).store.label head).tag = "head" :=
    (congrArg Label.tag (label_openIn_of_lt b head _ hlt)).trans hname
  have hnew : ((b.openIn head (b.labelOf .html tag)).store.label b.store.cells.size).tag ≠
      "head" := by
    have hlabel := congrArg Label.tag (label_openIn_self b head (b.labelOf .html tag))
    exact fun heq => hother (hlabel.symm.trans heq)
  have hreopened : b.headElement.toList ++ b.stack = head :: b.stack := by
    rw [hhead]
    rfl
  obtain ⟨-, model, hraw, heq⟩ | heq :=
    startInHead_eq (b := { b with stack := head :: b.stack }) hcontent
  · have hstart : startInHead { b with stack := head :: b.stack } tag =
        done { b.openIn head (b.labelOf .html tag) with
          stack := [b.store.cells.size] ++ head :: b.stack
          request := some model
          textReturn := b.mode
          mode := .text } := by
      rw [heq, openRaw, hopened]
      rfl
    have hfront : ∀ handle ∈ [b.store.cells.size],
        ((b.openIn head (b.labelOf .html tag)).store.label handle).tag ≠ "head" :=
      fun handle hmem => List.mem_singleton.mp hmem ▸ hnew
    refine Or.inl ⟨model, hraw, ?_⟩
    rw [startIntoHead_of_stack hreopened hstart rfl hfront hfound]
    rfl
  · have hstart : startInHead { b with stack := head :: b.stack } tag =
        done { b.openIn head (b.labelOf .html tag) with stack := [] ++ head :: b.stack } := by
      rw [heq, openVoid, hopened]
      rfl
    have hfront : ∀ handle ∈ ([] : List Handle),
        ((b.openIn head (b.labelOf .html tag)).store.label handle).tag ≠ "head" :=
      fun handle hmem => absurd hmem List.not_mem_nil
    refine Or.inr ?_
    rw [startIntoHead_of_stack hreopened hstart rfl hfront hfound]
    rfl

/-! ## Edits -/

section Stands

variable {frames : Bool} {read : Option Token} (hread : ∀ token ∈ read, token.Opens frames)
include hread

/-- What may be opened for a token is an element. -/
theorem isElement_of_stands {tag : Tag} (hstands : Stands read tag) : tag.IsElement := by
  have hmade : ∀ name ∈ madeTags, Label.isElement { tag := name } = true := by decide
  have hknown : ∀ name ∈ Vocabulary.svgElementNames, Label.isElement { tag := name } = true := by
    decide
  cases hstands with
  | made hname _ => exact hmade _ hname
  | own hown => exact (hread _ hown).1
  | math hown => exact (hread _ hown).1
  | @svg tag hown name hname =>
      have htag : tag.IsElement := (hread _ hown).1
      rcases hname with rfl | rfl
      · exact htag
      · exact Vocabulary.restoreCase_cases
          (p := fun name => Label.isElement { tag := name } = true) hknown htag

end Stands

theorem suffix_stack_reopen (b : Builder) (handles : List Handle) (copies : List (Option Handle)) :
    b.stack <:+ (b.reopen handles copies).1.stack := by
  induction handles generalizing b copies with
  | nil => exact List.suffix_rfl
  | cons handle rest ih =>
      have hopened : b.stack <:+ (b.openLabel (b.label handle)).stack := by
        rw [stack_openLabel]
        exact List.suffix_cons _ _
      exact hopened.trans (ih _ _)

theorem suffix_stack_reconstruct (b : Builder) : b.stack <:+ b.reconstruct.stack :=
  suffix_stack_reopen b _ _

/-- Adding the text met in a table closes nothing. -/
theorem suffix_stack_flushTableText (b : Builder) : b.stack <:+ b.flushTableText.stack := by
  unfold Builder.flushTableText
  dsimp only
  split
  · rw [stack_addText]
    exact suffix_stack_reconstruct
      { b with tableTexts := [], mode := b.tableReturn, fosters := true }
  · split
    · exact List.suffix_rfl
    · exact ⟨[], (stack_addText { b with tableTexts := [], mode := b.tableReturn } _).symm⟩

namespace Careful

variable {root : Handle} {parts : List Handle} {b : Builder} (hb : b.Careful root parts)
include hb

theorem mode_ne_text : b.mode ≠ .text := by
  intro htext
  have hmode := hb.mode
  rw [htext] at hmode
  cases hmode

/-- The innermost element may be closed if it has another name than the root. -/
theorem pop_of_name (hname : b.currentName ≠ "html") : b.pop.Careful root parts :=
  hb.pop (hb.ne_root rfl hname)

theorem openForm {tag : Tag} (htag : tag.IsElement) :
    Careful root parts
      { b.openElement tag with formElement := some (b.openElement tag).current } := by
  refine { hb.openElement htag with form := fun handle hmem => ?_ }
  cases hmem
  exact hb.isInner_current_openLabel htag

theorem endAnchor {anchor : Handle} (hnamed : b.formattingNamed "a" = some anchor) :
    Careful root parts { b.endFormatting "a" with
      stack := (b.endFormatting "a").stack.erase anchor
      formatting := (b.endFormatting "a").formatting.erase (some anchor) } := by
  have hended : (b.endFormatting "a").Careful root parts := hb.endFormatting (by decide)
  have hclosed : Careful root parts { b.endFormatting "a" with
      stack := (b.endFormatting "a").stack.erase anchor } :=
    hended.close List.erase_sublist
      (hended.stack.erase (hb.isFree_of_formattingNamed hnamed).1.2)
  exact hclosed.formatting_subset List.erase_subset

theorem of_core {other : Builder} (hcore : other.core = b.core) : other.Careful root parts := by
  simp only [core, modes, Prod.mk.injEq] at hcore
  exact hb.of_frame hcore.1 hcore.2.1.1

section Read

variable {frames : Bool} {read : Option Token} {other : Builder}
  (hread : ∀ token ∈ read, token.Opens frames)
include hread

theorem edit (hedit : Edit read b other) : other.Careful root parts := by
  have helement : ∀ {tag : Tag}, Stands read tag → tag.IsElement := isElement_of_stands hread
  cases hedit with
  | flags hcore => exact hb.of_core hcore
  | addText text => exact hb.addText text
  | addMissing handle _ => exact hb.addMissing handle _
  | openElement htag _ => exact hb.openElement (helement htag)
  | openVoid htag => exact hb.openVoid (helement htag)
  | openForm htag _ => exact hb.openForm (helement htag)
  | openForeign space htag _ => exact hb.openForeign space (helement htag)
  | ask _ _ model => exact hb.of_frame rfl rfl
  | pop hloose => exact hb.pop_of_name fun hname => absurd (hname ▸ hloose) (by decide)
  | popImplied except => exact hb.popImplied except
  | popThrough _ hopen hmem hloose _ =>
      exact hb.popThrough_of_inScope (fun hroot => absurd (hloose _ hroot) (by decide)) hmem hopen
  | dropForm => exact { hb with form := fun _ hmem => absurd hmem (by simp) }
  | closeForm hform =>
      have hclosed := hb.close List.erase_sublist (hb.stack.erase (hb.form _ hform).2)
      exact { hclosed with form := fun _ hmem => absurd hmem (by simp) }
  | mark => exact hb.mark
  | clearToMarker => exact hb.clearToMarker
  | openFormatting htag _ => exact hb.openFormatting (helement htag)
  | reconstruct => exact hb.reconstruct
  | endFormatting htag => exact hb.endFormatting fun hroot => absurd (hroot ▸ htag) (by decide)
  | endAnchor hnamed => exact hb.endAnchor hnamed
  | endOther hroot _ => exact hb.endOther hroot

theorem edits (hedits : Edits read b other) : other.Careful root parts :=
  hedits.preserves hb fun hb hedit => hb.edit hread hedit

end Read

/-! ## Moves in the body -/

theorem endFrameset : b.endFrameset.Careful root parts := by
  have hclosed : (if b.currentName = "html" then b else b.pop).Careful root parts := by
    split
    next => exact hb
    next hname => exact hb.pop_of_name hname
  unfold Builder.endFrameset
  dsimp only
  generalize (if b.currentName = "html" then b else b.pop) = closed at hclosed ⊢
  split
  · exact hclosed.goto rfl
  · exact hclosed

/-- Where something else than the root is open the innermost element may be closed. -/
theorem pop_of_open {handle : Handle} (hmem : handle ∈ b.stack) (hname : b.name handle ≠ "html") :
    b.pop.Careful root parts := by
  refine hb.pop fun hcurrent => hname ?_
  obtain ⟨inner, hstack, hinner⟩ := hb.stack
  cases inner with
  | nil =>
      rw [hstack] at hmem
      rw [List.mem_singleton.mp hmem]
      exact hb.name_root
  | cons first rest =>
      rw [current, hstack] at hcurrent
      exact absurd hcurrent (hinner first List.mem_cons_self).2

/-- The modes that elements of a name are for, and nothing before the body, are entered. -/
theorem goto_holder {mode : Mode} {name : String} (hholder : name ∈ mode.holders) :
    (b.goto mode).Careful root parts :=
  hb.goto (Mode.closesByName_of_isLate (Mode.isLate_of_holders (List.ne_nil_of_mem hholder)))

theorem goto_outer (mode : Mode) : (b.goto mode.outer).Careful root parts :=
  hb.goto (by cases mode <;> rfl)

section Read

variable {frames : Bool} {read : Option Token} {other : Builder}
  (hread : ∀ token ∈ read, token.Opens frames) (hcount : parts.length = (partNames frames).length)
include hread hcount

omit hb hread in
theorem length_lt_of_frameset {tag : Tag} (htoken : Token.Opens frames (.startTag tag))
    (hname : tag.name = "frameset") : parts.length < 2 := by
  rw [hcount, htoken.2 hname]
  decide

theorem proceeds (hmove : Proceeds read b other) : other.Careful root parts := by
  have hopened : ∀ {tag : Tag}, Stands read tag → (b.openElement tag).Careful root parts :=
    fun hstands => hb.openElement (isElement_of_stands hread hstands)
  have hroots : ∀ name ∈ ["table", "select"], "html" ∉ [name] := by decide
  cases hmove with
  | edit _ hedit => exact hb.edit hread hedit
  | continueAfter _ => exact hb.reconstruct
  | openBlock _ htag _ hholder => exact (hopened htag).goto_holder hholder
  | closeBlock hname _ hopen =>
      exact (hb.popThrough_of_inScope (hroots _ hname) List.mem_cons_self hopen).resetMode
  | clear _ => exact hb.popTo (List.mem_append_right _ List.mem_cons_self)
  | openPart _ _ htag _ hholder => exact (hopened htag).goto_holder hholder
  | closePart _ _ hopen =>
      obtain ⟨handle, hmem, hholder⟩ := hopen
      exact (hb.pop_of_open hmem fun hname =>
        Mode.html_not_mem_holders _ (hname ▸ hholder)).goto_outer _
  | closeColumns _ hname => exact (hb.pop_of_name hname).goto rfl
  | closeSection _ hholder hopen =>
      have hroot : "html" ∉ [_] := fun hmem =>
        Mode.html_not_mem_holders b.mode (List.mem_singleton.mp hmem ▸ hholder)
      exact (hb.popThrough_of_inScope hroot List.mem_cons_self hopen).clearToMarker.goto_outer _
  | openOption _ htag _ => exact hopened htag
  | closeOption _ hname =>
      exact hb.pop_of_name fun hroot => absurd (hroot ▸ hname) (by decide)
  | startTableText _ => exact { hb.toRooted with tableReturn := hb.mode, mode := rfl }
  | endTableText _ hedits =>
      have hreturned : Careful root parts { b with tableTexts := [], mode := b.tableReturn } :=
        ⟨hb.toRooted.of_frame rfl, hb.tableReturn⟩
      exact hreturned.edits hread hedits
  | endBody _ => exact hb.goto rfl
  | endDocument _ => exact hb.goto rfl
  | reenter _ => exact hb.goto rfl
  | @replaceBody _ body _ hbodyName tag hown hname =>
      -- Where a frame set may be read the body is not among the parts that have to stay.
      have hfree : body ∉ root :: parts := by
        rw [List.mem_cons, not_or]
        exact ⟨hb.ne_root hbodyName (by decide), hb.hosts.not_mem_of_body
          (length_lt_of_frameset hcount (hread _ hown) hname) hbodyName⟩
      have hclosed : Careful root parts
          (Builder.popTo { b with store := b.store.detach body } ["html"]) :=
        (hb.detach hfree).popTo List.mem_cons_self
      exact (hclosed.openElement (isElement_of_stands hread (.own hown))).goto rfl
  | openFrameset _ htag _ => exact hopened htag
  | closeFrameset _ => exact hb.endFrameset
  | endFrames _ => exact hb.goto rfl
  | missBody _ _ => exact hb.expect false
  | missHolder _ _ => exact hb.expect false
  | expectInner _ => exact hb.expect _

end Read

/-! ## Elements put into the head -/

section Head

variable {tag : Tag} (htag : tag.IsElement)
include htag

/-- Raw content with another element closed around it may be returned from. -/
theorem supplied_erase_openRaw {handle : Handle} {name : String} (hname : tag.name ≠ name)
    (hroot : name ≠ "html") (model : ContentModel)
    (hhandle : (b.openRaw tag model).name handle = name) :
    Supplied root parts { b.openRaw tag model with
      stack := (b.openRaw tag model).stack.erase handle } := by
  have hopened := hb.toRooted.openRaw htag model
  have hlabel : (b.openRaw tag model).label (b.openElement tag).current = b.labelOf .html tag :=
    label_current_openLabel b _
  have hne : (b.openElement tag).current ≠ handle := by
    rintro rfl
    exact hname ((congrArg Label.tag hlabel).symm.trans hhandle)
  have hrooted : Rooted root parts { b.openRaw tag model with
      stack := (b.openRaw tag model).stack.erase handle } :=
    hopened.close List.erase_sublist (hopened.stack.erase (hopened.ne_root hhandle hroot))
  have hcount := hrooted.two_le_htmlCount ((List.mem_erase_of_ne hne).mpr List.mem_cons_self)
    (hb.isInner_current_openLabel htag).2 (congrArg Label.space hlabel)
  refine ⟨hrooted, ?_⟩
  exact Mode.suits_of_closesByName hb.mode (Nat.sub_le_sub_right hcount 1)

/-- The head is opened again for one element and closed around it. -/
theorem startIntoHead (hname : tag.name ∈ headNames) :
    (b.startIntoHead tag).Supplied root parts := by
  cases hhead : b.headElement with
  | some head =>
      obtain ⟨⟨helement, -⟩, hheadName⟩ := hb.head head hhead
      have hopened := hb.toRooted.openIn helement (b.labelOf .html tag) htag
      have hnew := (hb.isFree_create (b.labelOf .html tag) htag).1.2
      obtain ⟨model, -, heq⟩ | heq :=
        startIntoHead_eq hhead hheadName (Store.lt_size_of_isElement helement) hname
      · rw [heq]
        have hcount := hopened.two_le_htmlCount List.mem_cons_self hnew
          (congrArg Label.space (label_openIn_self b head (b.labelOf .html tag)))
        refine ⟨hopened.of_frame rfl, ?_⟩
        exact Mode.suits_of_closesByName hb.mode (Nat.sub_le_sub_right hcount 1)
      · rw [heq]
        exact Careful.supplied ⟨hopened.pop hnew, hb.mode⟩
  | none =>
      have hknown : ∀ name ∈ headNames, name ∈ headContent ∧ name ≠ "head" := by decide
      obtain ⟨hcontent, hother⟩ := hknown tag.name hname
      have hreopened : Careful root parts { b with stack := b.headElement.toList ++ b.stack } := by
        have hsame : b.headElement.toList ++ b.stack = b.stack := by
          rw [hhead]
          rfl
        rw [hsame]
        exact hb
      unfold Builder.startIntoHead
      dsimp only
      generalize { b with stack := b.headElement.toList ++ b.stack } = reopened at hreopened ⊢
      obtain ⟨-, model, -, heq⟩ | heq := startInHead_eq (b := reopened) hcontent
      · rw [heq]
        split
        next head hhead =>
          exact hreopened.supplied_erase_openRaw htag hother (by decide) model
            (name_of_find? hhead)
        next => exact hreopened.supplied.openRaw htag hreopened.mode_ne_text model
      · rw [heq]
        have hopened := hreopened.openVoid htag
        split
        next head hhead =>
          have hne := hopened.ne_root (name_of_find? hhead) (by decide)
          exact (hopened.close List.erase_sublist (hopened.stack.erase hne)).supplied
        next => exact hopened.supplied

end Head

end Careful

namespace Supplied

variable {root : Handle} {parts : List Handle} {b : Builder} (hb : b.Supplied root parts)
include hb

theorem of_core {other : Builder} (hcore : other.core = b.core) : other.Supplied root parts := by
  simp only [core, modes, Prod.mk.injEq] at hcore
  exact hb.of_frame hcore.1 hcore.2.1.1 hcore.2.1.2.1

/-- Text met in a table is added in the mode that the table is in. -/
theorem flushTableText : b.flushTableText.Careful root parts := by
  have hreturned : Careful root parts { b with tableTexts := [], mode := b.tableReturn } :=
    ⟨hb.toRooted.of_frame rfl, hb.tableReturn⟩
  have hfosters : Careful root parts
      { b with tableTexts := [], mode := b.tableReturn, fosters := true } :=
    hreturned.of_frame rfl rfl
  unfold Builder.flushTableText
  dsimp only
  split
  · exact (hfosters.reconstruct.addText _).of_frame rfl rfl
  · split
    · exact hreturned
    · exact hreturned.addText _

section Read

variable {frames : Bool} {read : Option Token} {other : Builder}
  (hread : ∀ token ∈ read, token.Opens frames) (hcount : parts.length = (partNames frames).length)
include hread

theorem begins (hmove : Begins read b other) : other.Supplied root parts := by
  have helement : ∀ {tag : Tag}, Stands read tag → tag.IsElement := isElement_of_stands hread
  have hcareful : ∀ {mode : Mode}, b.mode = mode → mode.closesByName = true →
      b.Careful root parts := fun hmode hcloses => hb.careful (hmode ▸ hcloses)
  cases hmove with
  | declare hmode _ => exact absurd hmode hb.mode_ne_initial
  | openRoot hmode => exact absurd hmode hb.mode_ne_beforeHtml
  | openHead hmode _ hname => exact (hcareful hmode rfl).openHead hname
  | leaveHead hmode => exact hb.leaveHead hmode
  | openNoscript hmode htag _ => exact hb.openNoscript hmode (helement htag)
  | leaveNoscript hmode => exact hb.leaveNoscript hmode
  | openBody hmode htag _ =>
      exact (((hcareful hmode rfl).openElement (helement htag)).goto rfl).supplied
  | openFrames hmode hown _ =>
      exact (((hcareful hmode rfl).openElement (helement (.own hown))).goto rfl).supplied

theorem wanders (hmove : Wanders read b other) : other.Supplied root parts := by
  cases hmove with
  | openForeign space htag => exact hb.openForeign space (isElement_of_stands hread htag)
  | leaveForeign => exact hb.leaveForeign
  | @closeForeign front outer handle hstack hforeign flushed hflushed =>
      subst hflushed
      split
      next =>
        -- The text met in the table closes nothing, so the element is still open after it.
        have hmem : handle ∈ b.stack := hstack ▸ List.mem_append_right _ List.mem_cons_self
        have hne : handle ≠ root := fun heq =>
          hforeign handle (List.mem_append_right _ List.mem_cons_self) (heq ▸ hb.space_root)
        have hopen := (suffix_stack_flushTableText b).subset hmem
        exact (hb.flushTableText.close (sublist_drop_dropWhile _ _)
          (hb.flushTableText.stack.drop_dropWhile hopen (by simp) hne)).supplied
      next => exact hb.closeForeign hstack hforeign

include hcount

theorem move (hmove : Move read b other) : other.Supplied root parts := by
  cases hmove with
  | flags hcore => exact hb.of_core hcore
  | addText _ text => exact hb.addText text
  | addComment _ hparent =>
      refine hb.addComment _ (hparent.imp_right fun hopen => ?_)
      rcases List.mem_pair.mp hopen.2 with rfl | rfl
      · exact hb.isElement_current
      · exact hb.root_eq ▸ hb.isElement_root
  | mergeRoot _ _ => exact hb.mergeRoot _
  | openVoid _ htag => exact hb.openVoid (isElement_of_stands hread htag)
  | missEnd _ _ => exact hb.expect false
  | leaveText hmode => exact hb.leaveText hmode
  | begins hmove => exact hb.begins hread hmove
  | proceeds hmove =>
      have hcareful := hb.careful (Mode.closesByName_of_isLate hmove.isLate)
      exact (hcareful.proceeds hread hcount hmove).supplied
  | wanders _ hmove => exact hb.wanders hread hmove

omit hcount in
theorem opensRaw (hopens : OpensRaw read b other) : other.Supplied root parts := by
  cases hopens with
  | openRaw hmode hown _ _ =>
      refine hb.openRaw (hread _ hown).1 (fun htext => ?_) _
      rw [htext] at hmode
      cases hmode
  | startIntoHead hmode hown hname =>
      exact (hb.careful (by rw [hmode]; rfl)).startIntoHead (hread _ hown).1 hname

end Read

end Supplied

end Builder

end Winnow.Html
