import Winnow.Proofs.Html.Construction.Moves
import Winnow.Proofs.Html.Rooted.Formatting

/-!
# Modes that close the innermost element unseen

In the head and in raw text the innermost element is closed whatever it is. In these modes
enough HTML elements are open for that: the head and what is open in it stand inside the root,
and raw text stands inside all that its return mode needs.
-/

namespace Winnow.Html

/-- Are so many open HTML elements enough for a mode? Before the root there is no mode that an
open document may be in, and raw text is not a mode to return to. -/
def Mode.Suits (mode : Mode) (count : Nat) : Prop :=
  match mode with
  | .initial => False
  | .beforeHtml => False
  | .text => False
  | .head => 2 ≤ count
  | .headNoscript => 3 ≤ count
  | _ => 1 ≤ count

theorem Mode.Suits.mono {mode : Mode} {few many : Nat} (hsuits : mode.Suits few)
    (hle : few ≤ many) : mode.Suits many := by
  cases mode <;> simp only [Suits] at hsuits ⊢ <;> omega

theorem Mode.Suits.pos {mode : Mode} {count : Nat} (hsuits : mode.Suits count) : 1 ≤ count := by
  cases mode <;> simp only [Suits] at hsuits <;> omega

theorem Mode.closesByName_of_isLate {mode : Mode} (hmode : mode.isLate = true) :
    mode.closesByName = true := by
  cases mode <;> first | rfl | cases hmode

theorem Mode.suits_of_closesByName {mode : Mode} (hmode : mode.closesByName = true) {count : Nat}
    (hcount : 1 ≤ count) : mode.Suits count := by
  cases mode <;> first | exact hcount | cases hmode

namespace Builder

/-- How many HTML elements are open. -/
def htmlCount (b : Builder) : Nat :=
  b.stack.countP fun handle => decide ((b.label handle).space = .html)

/-- A rooted document with enough open elements for its mode. -/
structure Supplied (root : Handle) (parts : List Handle) (b : Builder) : Prop
    extends Rooted root parts b where
  mode : if b.mode = .text then b.textReturn.Suits (b.htmlCount - 1) else b.mode.Suits b.htmlCount

section Count

variable {root : Handle} {parts : List Handle} {b : Builder} (hb : b.Rooted root parts)
include hb

theorem Rooted.one_le_htmlCount : 1 ≤ b.htmlCount := by
  obtain ⟨inner, hstack, -⟩ := hb.stack
  rw [htmlCount, hstack, List.countP_append, List.countP_singleton, hb.space_root]
  exact Nat.le_add_left 1 _

/-- Of more than one open HTML element the innermost open element is not the root. -/
theorem Rooted.current_ne_root (hcount : 2 ≤ b.htmlCount) : b.current ≠ root := by
  obtain ⟨inner, hstack, hinner⟩ := hb.stack
  cases inner with
  | nil =>
      have hle := List.countP_le_length (p := fun handle => decide ((b.label handle).space = .html))
        (l := b.stack)
      rw [hstack] at hle
      rw [htmlCount, hstack] at hcount
      exact absurd (Nat.le_trans hcount hle) (by simp)
  | cons first rest =>
      rw [current, hstack]
      exact (hinner first List.mem_cons_self).2

/-- The root and an element inside it make two. -/
theorem Rooted.two_le_htmlCount {handle : Handle} (hmem : handle ∈ b.stack) (hne : handle ≠ root)
    (hspace : (b.label handle).space = .html) : 2 ≤ b.htmlCount := by
  obtain ⟨inner, hstack, -⟩ := hb.stack
  rw [hstack] at hmem
  have hinner : handle ∈ inner :=
    (List.mem_append.mp hmem).resolve_right fun hlast => hne (List.mem_singleton.mp hlast)
  have hpos : 0 < inner.countP fun handle => decide ((b.label handle).space = .html) :=
    List.countP_pos_iff.mpr ⟨handle, hinner, by simp [hspace]⟩
  rw [htmlCount, hstack, List.countP_append, List.countP_singleton, hb.space_root]
  exact Nat.succ_le_succ hpos

end Count

theorem htmlCount_congr {b other : Builder} (hstack : other.stack = b.stack)
    (hspace : ∀ handle ∈ b.stack, (other.label handle).space = (b.label handle).space) :
    other.htmlCount = b.htmlCount := by
  rw [htmlCount, hstack, htmlCount, List.countP_congr fun handle hmem => by rw [hspace handle hmem]]

theorem htmlCount_pop (b : Builder) : b.htmlCount - 1 ≤ b.pop.htmlCount := by
  unfold htmlCount pop
  cases b.stack with
  | nil => simp
  | cons first rest =>
      rw [List.countP_cons]
      change _ ≤ rest.countP _
      split
      · exact Nat.le_refl _
      · exact Nat.sub_le _ _

/-- Opening an HTML element adds one to those that are open. -/
theorem Rooted.htmlCount_openElement {root : Handle} {parts : List Handle} {b : Builder}
    (hb : b.Rooted root parts) (tag : Tag) :
    (b.openElement tag).htmlCount = b.htmlCount + 1 := by
  have hstack : (b.openElement tag).stack = (b.openElement tag).current :: b.stack :=
    stack_openLabel b _
  have hspace : ((b.openElement tag).label (b.openElement tag).current).space = .html :=
    congrArg Label.space (label_current_openLabel b (b.labelOf .html tag))
  have hold : ∀ handle ∈ b.stack, (b.openElement tag).label handle = b.label handle :=
    fun handle hmem => label_openLabel_of_lt b handle _
      (Store.lt_size_of_isElement (hb.isElement_of_mem hmem))
  rw [htmlCount, hstack, List.countP_cons, hspace,
    List.countP_congr fun handle hmem => by rw [hold handle hmem]]
  rfl

theorem Careful.supplied {root : Handle} {parts : List Handle} {b : Builder}
    (hb : b.Careful root parts) : b.Supplied root parts := by
  have hmode := hb.mode
  refine ⟨hb.toRooted, ?_⟩
  rw [if_neg fun htext => by rw [htext] at hmode; cases hmode]
  exact Mode.suits_of_closesByName hmode hb.one_le_htmlCount

namespace Supplied

variable {root : Handle} {parts : List Handle} {b : Builder} (hb : b.Supplied root parts)
include hb

theorem careful (hmode : b.mode.closesByName = true) : b.Careful root parts := ⟨hb.toRooted, hmode⟩

/-- A change that closes no HTML element leaves enough of them. -/
theorem of_le {other : Builder} (hrooted : other.Rooted root parts) (hmode : other.mode = b.mode)
    (hreturn : other.textReturn = b.textReturn) (hcount : b.htmlCount ≤ other.htmlCount) :
    other.Supplied root parts := by
  refine ⟨hrooted, ?_⟩
  have hold := hb.mode
  rw [hmode, hreturn]
  split
  next htext =>
    rw [if_pos htext] at hold
    exact hold.mono (Nat.sub_le_sub_right hcount 1)
  next htext =>
    rw [if_neg htext] at hold
    exact hold.mono hcount

theorem of_frame {other : Builder} (hframe : other.frame = b.frame) (hmode : other.mode = b.mode)
    (hreturn : other.textReturn = b.textReturn) : other.Supplied root parts := by
  have hrooted := hb.toRooted.of_frame hframe
  simp only [frame, Prod.mk.injEq] at hframe
  have hcount : other.htmlCount = b.htmlCount := htmlCount_congr hframe.2.1 fun handle _ =>
    congrArg (fun store : Store => (store.label handle).space) hframe.1
  exact hb.of_le hrooted hmode hreturn (Nat.le_of_eq hcount.symm)

theorem suits (hmode : b.mode ≠ .text) : b.mode.Suits b.htmlCount := by
  have hsuits := hb.mode
  rwa [if_neg hmode] at hsuits

/-- An open document is past the modes before the root. -/
theorem mode_ne_initial : b.mode ≠ .initial := by
  intro hmode
  have hsuits := hb.suits (by rw [hmode]; decide)
  rw [hmode] at hsuits
  exact hsuits

theorem mode_ne_beforeHtml : b.mode ≠ .beforeHtml := by
  intro hmode
  have hsuits := hb.suits (by rw [hmode]; decide)
  rw [hmode] at hsuits
  exact hsuits

theorem expect (ok : Bool) : (b.expect ok).Supplied root parts := by
  refine ⟨hb.toRooted.expect ok, ?_⟩
  unfold Builder.expect
  split
  · exact hb.mode
  · exact hb.mode

theorem openVoid {tag : Tag} (htag : tag.IsElement) : (b.openVoid tag).Supplied root parts := by
  refine hb.of_le (hb.toRooted.openVoid htag) (mode_openLabel ..) (textReturn_openLabel ..) ?_
  have hpopped := htmlCount_pop (b.openElement tag)
  rwa [hb.htmlCount_openElement] at hpopped

/-- What is open when raw content starts is enough to return to. -/
theorem openRaw {tag : Tag} (htag : tag.IsElement) (hmode : b.mode ≠ .text)
    (model : ContentModel) : (b.openRaw tag model).Supplied root parts := by
  have hraw : (b.openRaw tag model).mode = .text := rfl
  refine ⟨hb.toRooted.openRaw htag model, ?_⟩
  rw [if_pos hraw]
  change b.mode.Suits ((b.openElement tag).htmlCount - 1)
  rw [hb.htmlCount_openElement, Nat.add_sub_cancel]
  exact hb.suits hmode

/-- Where the mode needs more than the root the innermost element may be closed. -/
theorem pop_goto (mode : Mode) (hmode : mode.Suits (b.htmlCount - 1)) (htext : mode ≠ .text) :
    (b.pop.goto mode).Supplied root parts := by
  have hpos := hmode.pos
  have hpopped := hb.toRooted.pop (hb.current_ne_root (by omega))
  have hreached : (b.pop.goto mode).mode ≠ .text := htext
  refine ⟨hpopped.of_frame rfl, ?_⟩
  rw [if_neg hreached]
  exact hmode.mono (htmlCount_pop b)

/-! ## Text, comments and attributes -/

theorem lt_size_of_mem {handle : Handle} (hmem : handle ∈ b.stack) : handle < b.store.cells.size :=
  Store.lt_size_of_isElement (hb.isElement_of_mem hmem)

theorem addText (text : String) : (b.addText text).Supplied root parts := by
  have hmode := congrArg Builder.mode (addText_eq b text)
  have hreturn := congrArg Builder.textReturn (addText_eq b text)
  have hcount : (b.addText text).htmlCount = b.htmlCount := htmlCount_congr (stack_addText b text)
    fun handle hmem =>
      congrArg Label.space (label_addText_of_lt b handle text (hb.lt_size_of_mem hmem))
  exact hb.of_le (hb.toRooted.addText text) hmode hreturn (Nat.le_of_eq hcount.symm)

theorem addComment {parent : Handle} (text : String)
    (hparent : parent = 0 ∨ (b.label parent).isElement = true) :
    (b.addComment parent text).Supplied root parts := by
  have hcount : (b.addComment parent text).htmlCount = b.htmlCount := htmlCount_congr rfl
    fun handle hmem =>
      congrArg Label.space (label_addComment_of_lt b parent handle text (hb.lt_size_of_mem hmem))
  exact hb.of_le (hb.toRooted.addComment text hparent) rfl rfl (Nat.le_of_eq hcount.symm)

theorem addMissing (handle : Handle) (attributes : Assoc String) :
    (b.addMissing handle attributes).Supplied root parts := by
  have hcount : (b.addMissing handle attributes).htmlCount = b.htmlCount :=
    htmlCount_congr rfl fun other _ => Store.space_setAttributes ..
  exact hb.of_le (hb.toRooted.addMissing handle attributes) rfl rfl (Nat.le_of_eq hcount.symm)

theorem mergeRoot (tag : Tag) : (b.mergeRoot tag).Supplied root parts := hb.addMissing _ _

/-! ## The head -/

theorem leaveHead (hmode : b.mode = .head) : b.leaveHead.Supplied root parts := by
  have hsuits := hb.suits (by rw [hmode]; decide)
  rw [hmode] at hsuits
  exact hb.pop_goto .afterHead (Nat.sub_le_sub_right hsuits 1) (by decide)

theorem leaveNoscript (hmode : b.mode = .headNoscript) :
    (b.pop.goto .head).Supplied root parts := by
  have hsuits := hb.suits (by rw [hmode]; decide)
  rw [hmode] at hsuits
  exact hb.pop_goto .head (Nat.sub_le_sub_right hsuits 1) (by decide)

theorem leaveText (hmode : b.mode = .text) : (b.pop.goto b.textReturn).Supplied root parts := by
  have hsuits := hb.mode
  rw [if_pos hmode] at hsuits
  refine hb.pop_goto b.textReturn hsuits fun htext => ?_
  rw [htext] at hsuits
  exact hsuits

theorem openNoscript (hmode : b.mode = .head) {tag : Tag} (htag : tag.IsElement) :
    ((b.openElement tag).goto .headNoscript).Supplied root parts := by
  have hsuits := hb.suits (by rw [hmode]; decide)
  rw [hmode] at hsuits
  refine ⟨(hb.toRooted.openElement htag).of_frame rfl, ?_⟩
  change 3 ≤ (b.openElement tag).htmlCount
  rw [hb.htmlCount_openElement]
  exact Nat.succ_le_succ hsuits

/-! ## Foreign elements -/

theorem openForeign (space : Namespace) {tag : Tag} (htag : tag.IsElement) :
    (b.openForeign space tag).Supplied root parts := by
  have hlabel : (b.labelOf space tag).isElement = true := htag
  have hopened : (b.openLabel (b.labelOf space tag)).Rooted root parts :=
    hb.toRooted.openLabel hlabel
  have hsame : ∀ handle ∈ b.stack,
      ((b.openLabel (b.labelOf space tag)).label handle).space = (b.label handle).space :=
    fun handle hmem =>
      congrArg Label.space (label_openLabel_of_lt b handle _ (hb.lt_size_of_mem hmem))
  unfold Builder.openForeign
  dsimp only
  split
  · have hpopped := hopened.pop (hb.isInner_current_openLabel hlabel).2
    have hstack : (b.openLabel (b.labelOf space tag)).pop.stack = b.stack := by
      rw [Builder.pop, stack_openLabel]
      rfl
    exact hb.of_le hpopped (mode_openLabel ..) (textReturn_openLabel ..)
      (Nat.le_of_eq (htmlCount_congr hstack hsame).symm)
  · refine hb.of_le hopened (mode_openLabel ..) (textReturn_openLabel ..) ?_
    rw [htmlCount, htmlCount, stack_openLabel, List.countP_cons,
      List.countP_congr fun handle hmem => by rw [← hsame handle hmem]]
    exact Nat.le_add_right _ _

/-- Foreign elements are closed up to one that takes what follows. -/
theorem leaveForeign : b.leaveForeign.Supplied root parts := by
  have hrooted : b.leaveForeign.Rooted root parts :=
    hb.close (List.dropWhile_sublist _) (hb.stack.dropWhile (by simp [hb.space_root]))
  refine hb.of_le hrooted rfl rfl (countP_le_dropWhile fun handle hcloses => ?_)
  rw [Bool.and_eq_true, Bool.and_eq_true, decide_eq_true_eq] at hcloses
  exact decide_eq_false hcloses.1.1

/-- A foreign element is closed with those inside, which are foreign too. -/
theorem closeForeign {front outer : List Handle} {handle : Handle}
    (hstack : b.stack = front ++ handle :: outer)
    (hforeign : ∀ other ∈ front ++ [handle], (b.label other).space ≠ .html) :
    Supplied root parts { b with stack := (b.stack.dropWhile (· != handle)).drop 1 } := by
  have hmem : handle ∈ b.stack := hstack ▸ List.mem_append_right _ List.mem_cons_self
  have hne : handle ≠ root := fun heq =>
    hforeign handle (List.mem_append_right _ List.mem_cons_self) (heq ▸ hb.space_root)
  have hclosed : Rooted root parts { b with
      stack := (b.stack.dropWhile (· != handle)).drop 1 } :=
    hb.close (sublist_drop_dropWhile _ _) (hb.stack.drop_dropWhile hmem (by simp) hne)
  -- Only foreign elements are closed, so as many HTML elements stay open.
  have hcount : b.htmlCount ≤ ((b.stack.dropWhile (· != handle)).drop 1).countP
      fun handle => decide ((b.label handle).space = .html) := by
    have hfront : (front ++ [handle]).countP
        (fun handle => decide ((b.label handle).space = .html)) = 0 :=
      List.countP_eq_zero.mpr fun other hother => by simpa using hforeign other hother
    rw [htmlCount, hstack]
    refine Nat.le_trans (Nat.le_of_eq ?_)
      (suffix_drop_dropWhile front handle outer).sublist.countP_le
    rw [List.append_cons, List.countP_append, hfront, Nat.zero_add]
  exact hb.of_le hclosed rfl rfl hcount

end Supplied

/-- The head is open with one element in it, or with raw content. -/
theorem Careful.openHead {root : Handle} {parts : List Handle} {b : Builder}
    (hb : b.Careful root parts) {tag : Tag} (hname : tag.name = "head") :
    (b.openHead tag).Supplied root parts := by
  have htag : tag.IsElement := by
    rw [Tag.IsElement, hname]
    decide
  have hopened := hb.openElement htag
  refine ⟨{ hopened with head := fun handle hmem => ?_ }, ?_⟩
  · cases hmem
    refine ⟨hb.isInner_current_openLabel htag, ?_⟩
    exact (congrArg Label.tag (label_current_openLabel b (b.labelOf .html tag))).trans hname
  · change 2 ≤ (b.openElement tag).htmlCount
    rw [hb.htmlCount_openElement]
    exact Nat.succ_le_succ hb.one_le_htmlCount

end Builder

end Winnow.Html
