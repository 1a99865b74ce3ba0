import Winnow.Proofs.Html.Rooted.Moves

/-!
# A document before its body

Until the body is there, hardly anything is open: the head and at most one element in it or after
it. The head is put into the root and then the body after it, and there is no way to the content of
a document that leaves one of them out, except with a frame set in place of the body.
-/

namespace Winnow.Html

/-- Is exactly this open in a mode after the head was begun and before the body? -/
def Mode.Opens (root first : Handle) : Mode → List Handle → Prop
  | .head, stack => stack = [first, root]
  | .headNoscript, stack => ∃ inner, stack = [inner, first, root]
  | .afterHead, stack => stack = [root]
  | _, _ => False

theorem Mode.Opens.ne_nil {root first : Handle} {mode : Mode} {stack : List Handle}
    (hopens : mode.Opens root first stack) : stack ≠ [] := by
  rintro rfl
  cases mode with
  | head => cases hopens
  | headNoscript =>
      obtain ⟨inner, heq⟩ := hopens
      cases heq
  | afterHead => cases hopens
  | _ => exact hopens.elim

namespace Builder

/-! ## New nodes are listed -/

section Listed

variable {b : Builder} (hlisted : b.store.Listed)
include hlisted

theorem listed_place {child : Handle} (hchild : child < b.store.cells.size) :
    (b.place child).store.Listed := by
  unfold place foster
  split
  · split
    · exact hlisted.insertBefore hchild _ _
    · exact hlisted.append hchild _
  · exact hlisted.append hchild _

theorem listed_create (label : Label) :
    (b.create label).1.store.Listed ∧ b.store.cells.size < (b.create label).1.store.cells.size := by
  refine ⟨hlisted.add label, ?_⟩
  change b.store.cells.size < (b.store.add label).1.cells.size
  rw [Store.size_add]
  exact Nat.lt_succ_self _

theorem listed_openLabel (label : Label) : (b.openLabel label).store.Listed := by
  obtain ⟨hcreated, hnew⟩ := listed_create hlisted label
  exact listed_place hcreated hnew

theorem listed_openIn (parent : Handle) (label : Label) : (b.openIn parent label).store.Listed := by
  obtain ⟨hcreated, hnew⟩ := listed_create hlisted label
  exact hcreated.append hnew parent

theorem listed_addText (text : String) : (b.addText text).store.Listed := by
  obtain ⟨hcreated, hnew⟩ := listed_create hlisted (.ofText text)
  unfold addText
  dsimp only
  split
  · split
    · exact hcreated.insertBefore hnew _ _
    · exact hcreated.append hnew _
  · exact hcreated.append hnew _

theorem listed_addComment (parent : Handle) (text : String) :
    (b.addComment parent text).store.Listed := by
  obtain ⟨hcreated, hnew⟩ := listed_create hlisted (.ofComment text)
  exact hcreated.append hnew parent

theorem listed_addMissing (handle : Handle) (attributes : Assoc String) :
    (b.addMissing handle attributes).store.Listed :=
  hlisted.setAttributes handle _

end Listed

/-! ## Parts of the root -/

section Root

variable {root : Handle} {parts : List Handle} {b : Builder} (hb : b.Rooted root parts)
  (hopened : b.stack = [root])
include hb hopened

/-- With nothing else open a new element is put into the root. -/
theorem openLabel_in_root (label : Label) : b.openLabel label = b.openIn root label := by
  have hcurrent : (b.create label).1.currentName = "html" := by
    have hroot : (b.create label).1.current = root := by
      change b.stack.headD 0 = root
      rw [hopened]
      rfl
    rw [currentName, hroot]
    exact (congrArg Label.tag (Store.label_add_of_lt
      (Store.lt_size_of_isElement hb.isElement_root) label)).trans hb.name_root
  have hplace : (b.create label).1.misplaces = false := by
    rw [misplaces, hcurrent]
    exact Bool.and_false _
  have hroot : (b.create label).1.current = root := by
    change b.stack.headD 0 = root
    rw [hopened]
    rfl
  unfold openLabel openIn
  dsimp only
  rw [place, hplace, if_neg Bool.false_ne_true, hroot]
  rfl

/-- A head or a body that is opened next in the root becomes a part of it. -/
theorem Rooted.openPart (hlisted : b.store.Listed) (label : Label) (hspace : label.space = .html)
    (hnamed : parts.map b.name ++ [label.tag] <+: ["head", "body"]) :
    (b.openLabel label).Rooted root (parts ++ [b.store.cells.size]) := by
  have htag : label.tag = "head" ∨ label.tag = "body" := by
    simpa using hnamed.subset (List.mem_append_right _ List.mem_cons_self)
  have hlabel : label.isElement = true := by
    rw [Label.isElement]
    rcases htag with htag | htag
    · rw [htag]
      decide
    · rw [htag]
      decide
  have hroot := Store.lt_size_of_isElement hb.isElement_root
  have hplaced := hb.openLabel hlabel
  have hstack : (b.openLabel label).stack = [b.store.cells.size, root] := by
    rw [stack_openLabel, hopened]
  have hnew : ∀ handle, IsInner b.store root handle → handle ≠ b.store.cells.size :=
    fun handle hinner => Nat.ne_of_lt (Store.lt_size_of_isElement hinner.1)
  refine { hplaced with hosts := ?_, shallow := ?_, formatting := fun handle hmem => ?_ }
  · rw [openLabel_in_root hb hopened]
    exact hb.hosts.append_part hlisted hroot (hb.grounded.ne_zero hb.isElement_root) hspace hnamed
  · rw [hstack]
    exact Shallow.of_length_le _ (Nat.le_refl 2)
  · have hold := hb.formatting handle (formatting_openLabel b label ▸ hmem)
    refine ⟨(hplaced.formatting handle hmem).1, fun hpart => ?_⟩
    rcases List.mem_append.mp hpart with hpart | hlast
    · exact hold.2 hpart
    · exact hnew handle hold.1 (List.mem_singleton.mp hlast)

end Root

/-! ## Before and after the head -/

/-- There is no root yet. -/
structure Bare (b : Builder) : Prop where
  grounded : b.store.Grounded []
  listed : b.store.Listed
  stack : b.stack = []
  formatting : b.formatting = []
  head : b.headElement = none
  form : b.formElement = none
  tableReturn : b.tableReturn.closesByName = true
  mode : b.mode = .initial ∨ b.mode = .beforeHtml

/-- The root is open and empty, up to comments. -/
structure Headless (root : Handle) (b : Builder) : Prop extends Rooted root [] b where
  listed : b.store.Listed
  mode : b.mode = .beforeHead
  opened : b.stack = [root]

/-- The head is there and the body is not. Raw text has one more element open than the mode that
follows it. -/
structure Headed (root first : Handle) (b : Builder) : Prop extends Rooted root [first] b where
  listed : b.store.Listed
  element : b.headElement = some first
  spaces : ∀ handle ∈ b.stack, (b.label handle).space = .html
  opened : b.mode.Opens root first b.stack ∨
    b.mode = .text ∧ b.textReturn.Opens root first (b.stack.drop 1)

/-- The head is there and the body too, unless frame sets may be read, and they are there to
stay. -/
def Whole (frames : Bool) (b : Builder) : Prop :=
  ∃ root parts, b.Supplied root parts ∧ parts.length = (partNames frames).length

/-- A document at any time. -/
inductive Standing (frames : Bool) (b : Builder) : Prop
  | bare (hb : b.Bare)
  | headless {root : Handle} (hb : b.Headless root)
  | headed {root first : Handle} (hb : b.Headed root first)
  | whole (hb : b.Whole frames)

theorem Rooted.current_ne_root_of_rest {root : Handle} {parts : List Handle} {b : Builder}
    (hb : b.Rooted root parts) (hrest : b.stack.drop 1 ≠ []) : b.current ≠ root := by
  obtain ⟨inner, hstack, hinner⟩ := hb.stack
  cases inner with
  | nil =>
      rw [hstack] at hrest
      exact absurd rfl hrest
  | cons first rest =>
      rw [current, hstack]
      exact (hinner first List.mem_cons_self).2

namespace Headed

variable {root first : Handle} {b : Builder} (hb : b.Headed root first)
include hb

theorem modes : b.mode = .head ∨ b.mode = .headNoscript ∨ b.mode = .afterHead ∨ b.mode = .text := by
  rcases hb.opened with hopen | ⟨htext, -⟩
  · cases hmode : b.mode with
    | head => simp
    | headNoscript => simp
    | afterHead => simp
    | _ =>
        rw [hmode] at hopen
        exact hopen.elim
  · simp [htext]

theorem opens (hmode : b.mode ≠ .text) : b.mode.Opens root first b.stack :=
  hb.opened.resolve_right fun hboth => hmode hboth.1

theorem textReturn_ne_text (hmode : b.mode = .text) : b.textReturn ≠ .text := by
  rcases hb.opened with hopen | ⟨-, hreturn⟩
  · rw [hmode] at hopen
    exact hopen.elim
  · intro htext
    rw [htext] at hreturn
    exact hreturn

theorem name_head : b.name first = "head" := (hb.head first hb.element).2

theorem lt_size_head : first < b.store.cells.size :=
  Store.lt_size_of_isElement (hb.head first hb.element).1.1

/-- Nothing foreign is open. -/
theorem inForeign_eq_false : b.inForeign = false := by
  unfold Builder.inForeign
  split
  next => rfl
  next handle rest hstack =>
    have hspace := hb.spaces handle (by rw [hstack]; exact List.mem_cons_self)
    rw [hspace]
    rfl

/-- A change after which the same is open in the same mode. -/
theorem of_same {other : Builder} (hrooted : other.Rooted root [first])
    (hlisted : other.store.Listed) (helement : other.headElement = b.headElement)
    (hspace : ∀ handle ∈ b.stack, (other.label handle).space = (b.label handle).space)
    (hstack : other.stack = b.stack) (hmode : other.mode = b.mode)
    (hreturn : other.textReturn = b.textReturn) : other.Headed root first where
  toRooted := hrooted
  listed := hlisted
  element := helement.trans hb.element
  spaces handle hmem := by
    rw [hstack] at hmem
    rw [hspace handle hmem]
    exact hb.spaces handle hmem
  opened := by
    rw [hstack, hmode, hreturn]
    exact hb.opened

theorem expect (ok : Bool) : (b.expect ok).Headed root first := by
  have hrooted := hb.toRooted.expect ok
  unfold Builder.expect at hrooted ⊢
  split
  · exact hb
  next hnot =>
    rw [if_neg hnot] at hrooted
    exact hb.of_same hrooted hb.listed rfl (fun _ _ => rfl) rfl rfl rfl

theorem lt_size_of_mem {handle : Handle} (hmem : handle ∈ b.stack) : handle < b.store.cells.size :=
  Store.lt_size_of_isElement (hb.isElement_of_mem hmem)

theorem addText (text : String) : (b.addText text).Headed root first := by
  have helement := congrArg Builder.headElement (addText_eq b text)
  have hmode := congrArg Builder.mode (addText_eq b text)
  have hreturn := congrArg Builder.textReturn (addText_eq b text)
  exact hb.of_same (hb.toRooted.addText text) (listed_addText hb.listed text) helement
    (fun handle hmem =>
      congrArg Label.space (label_addText_of_lt b handle text (hb.lt_size_of_mem hmem)))
    (stack_addText b text) hmode hreturn

theorem addComment {parent : Handle} (text : String)
    (hparent : parent = 0 ∨ (b.label parent).isElement = true) :
    (b.addComment parent text).Headed root first :=
  hb.of_same (hb.toRooted.addComment text hparent) (listed_addComment hb.listed parent text) rfl
    (fun handle hmem => congrArg Label.space
      (label_addComment_of_lt b parent handle text (hb.lt_size_of_mem hmem))) rfl rfl rfl

theorem mergeRoot (tag : Tag) : (b.mergeRoot tag).Headed root first :=
  hb.of_same (hb.toRooted.addMissing b.root tag.attributes)
    (listed_addMissing hb.listed b.root tag.attributes) rfl
    (fun _ _ => Store.space_setAttributes ..) rfl rfl rfl

/-! ### Elements of the head -/

section Open

variable {tag : Tag} (htag : tag.IsElement)
include htag

omit htag in
theorem spaces_openElement (handle : Handle) (hmem : handle ∈ (b.openElement tag).stack) :
    ((b.openElement tag).label handle).space = .html := by
  have hstack : (b.openElement tag).stack = (b.openElement tag).current :: b.stack :=
    stack_openLabel b _
  rw [hstack] at hmem
  rcases List.mem_cons.mp hmem with rfl | hold
  · exact congrArg Label.space (label_current_openLabel b (b.labelOf .html tag))
  · have hsame : (b.openElement tag).label handle = b.label handle :=
      label_openLabel_of_lt b handle _ (hb.lt_size_of_mem hold)
    rw [hsame]
    exact hb.spaces handle hold

theorem openVoid : (b.openVoid tag).Headed root first := by
  have hstack : (b.openVoid tag).stack = b.stack :=
    congrArg (List.drop 1) (stack_openLabel b (b.labelOf .html tag))
  refine hb.of_same (hb.toRooted.openVoid htag) (listed_openLabel hb.listed _)
    (headElement_openLabel b _) (fun handle hmem => ?_) hstack (mode_openLabel b _)
    (textReturn_openLabel b _)
  exact congrArg Label.space (label_openLabel_of_lt b handle _ (hb.lt_size_of_mem hmem))

theorem openRaw (hmode : b.mode ≠ .text) (model : ContentModel) :
    (b.openRaw tag model).Headed root first where
  toRooted := hb.toRooted.openRaw htag model
  listed := listed_openLabel hb.listed (b.labelOf .html tag)
  element := (headElement_openLabel b _).trans hb.element
  spaces := hb.spaces_openElement
  opened := by
    refine Or.inr ⟨rfl, ?_⟩
    have hstack : (b.openRaw tag model).stack.drop 1 = b.stack :=
      congrArg (List.drop 1) (stack_openLabel b (b.labelOf .html tag))
    rw [hstack]
    exact hb.opens hmode

theorem openNoscript (hmode : b.mode = .head) :
    ((b.openElement tag).goto .headNoscript).Headed root first where
  toRooted := (hb.toRooted.openElement htag).of_frame rfl
  listed := listed_openLabel hb.listed (b.labelOf .html tag)
  element := (headElement_openLabel b _).trans hb.element
  spaces := hb.spaces_openElement
  opened := by
    refine Or.inl ⟨b.store.cells.size, ?_⟩
    have hopen := hb.opens (by rw [hmode]; decide)
    rw [hmode] at hopen
    have hstack : (b.openElement tag).stack = b.store.cells.size :: b.stack := stack_openLabel b _
    exact hstack.trans (congrArg (b.store.cells.size :: ·) hopen)

end Open

/-- The innermost element is closed and leaves what is open in a mode. -/
theorem pop_goto {mode : Mode} (hopens : mode.Opens root first (b.stack.drop 1)) :
    (b.pop.goto mode).Headed root first := by
  have hpopped := hb.toRooted.pop (hb.current_ne_root_of_rest hopens.ne_nil)
  exact {
    toRooted := hpopped.of_frame rfl
    listed := hb.listed
    element := hb.element
    spaces := fun handle hmem => hb.spaces handle (List.mem_of_mem_drop hmem)
    opened := Or.inl hopens }

theorem leaveHead (hmode : b.mode = .head) : b.leaveHead.Headed root first := by
  have hopen := hb.opens (by rw [hmode]; decide)
  rw [hmode] at hopen
  have hopen : b.stack = [first, root] := hopen
  refine hb.pop_goto ?_
  rw [hopen]
  rfl

theorem leaveNoscript (hmode : b.mode = .headNoscript) :
    (b.pop.goto .head).Headed root first := by
  have hopen := hb.opens (by rw [hmode]; decide)
  rw [hmode] at hopen
  obtain ⟨inner, hopen⟩ := hopen
  refine hb.pop_goto ?_
  rw [hopen]
  rfl

theorem leaveText (hmode : b.mode = .text) : (b.pop.goto b.textReturn).Headed root first := by
  rcases hb.opened with hopen | ⟨-, hreturn⟩
  · rw [hmode] at hopen
    exact hopen.elim
  · exact hb.pop_goto hreturn

end Headed

end Builder

end Winnow.Html
