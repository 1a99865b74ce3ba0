import Winnow.Proofs.Html.Roundtrip.Reading
import Winnow.Proofs.Html.Rooted.Builder
import Winnow.Proofs.Store.FromTree

/-!
# Running content

In the body, with nothing open but plain blocks and spans, text goes to the innermost open
element, a start tag opens an element in it, and an end tag closes it. The document grows by what
is read and changes in nothing else.
-/

namespace Winnow

namespace Store

/-! ## What adding trees leaves alone -/

theorem addTrees_append (front back : List Tree) (store : Store) (target : Handle) :
    store.addTrees target (front ++ back) = (store.addTrees target front).addTrees target back := by
  induction front generalizing store with
  | nil => rw [List.nil_append, addTrees]
  | cons tree rest ih => rw [List.cons_append, addTrees, addTrees, ih]

/-- Adding trees keeps the nodes that are there. -/
theorem kept_addTrees (trees : List Tree) (store : Store) (target : Handle) :
    store.cells.size ≤ (store.addTrees target trees).cells.size ∧
      ∀ handle, handle < store.cells.size →
        (store.addTrees target trees).label handle = store.label handle := by
  induction trees using Tree.forest_induction generalizing store target with
  | nil => exact ⟨Nat.le_of_eq (by rw [addTrees]), fun handle _ => by rw [addTrees]⟩
  | cons label children rest ihChildren ihRest =>
      rw [addTrees, addTree]
      dsimp only
      rw [handle_add]
      obtain ⟨hinner, hinnerLabel⟩ :=
        ihChildren ((store.add label).1.append target store.cells.size) store.cells.size
      obtain ⟨houter, houterLabel⟩ := ihRest (((store.add label).1.append target
        store.cells.size).addTrees store.cells.size children) target
      rw [size_append, size_add] at hinner
      have hsize := Nat.le_of_succ_le hinner
      refine ⟨hsize.trans houter, fun handle hlt => ?_⟩
      rw [houterLabel handle (hlt.trans_le hsize), hinnerLabel handle ?_, label_append, label_add,
        if_neg (Nat.ne_of_lt hlt)]
      rw [size_append, size_add]
      exact hlt.trans (Nat.lt_succ_self _)

end Store

namespace Html.Builder

/-! ## The state in running content -/

/-- The elements that may be open in running content. -/
def openNames : List String := ["div", "span", "body", "html"]

/-- The body is being filled, and nothing but plain blocks and spans is open in it. -/
structure Flows (b : Builder) : Prop where
  mode : b.mode = .body
  fragment : b.fragment = false
  formatting : b.formatting = []
  fosters : b.fosters = false
  dropNewline : b.dropNewline = false
  strays : b.strays = []
  request : b.request = none
  fault : b.fault = none
  nonempty : b.stack ≠ []
  opened : ∀ handle ∈ b.stack, handle < b.store.cells.size ∧ (b.label handle).space = .html ∧
    b.name handle ∈ openNames

/-- A builder with more at the end of the innermost open element. -/
def extend (b : Builder) (trees : List Tree) (ok : Bool) : Builder :=
  { b with store := b.store.addTrees b.current trees, framesetOk := ok }

theorem extend_extend (b : Builder) (front back : List Tree) (ok ok' : Bool) :
    (b.extend front ok).extend back ok' = b.extend (front ++ back) ok' := by
  unfold extend
  rw [Store.addTrees_append]
  rfl

/-- A builder with a new element open in the innermost one. -/
def nest (b : Builder) (label : Label) : Builder :=
  { b with
    store := (b.store.add label).1.append b.current b.store.cells.size
    stack := b.store.cells.size :: b.stack }

/-- The new element has its label, whatever is read into it. -/
theorem label_nest_extend (b : Builder) (label : Label) (trees : List Tree) (ok : Bool) :
    ((b.nest label).extend trees ok).label b.store.cells.size = label := by
  have hsize : b.store.cells.size < (b.nest label).store.cells.size := by
    rw [Builder.nest, Store.size_append, Store.size_add]
    exact Nat.lt_succ_self _
  have hnew : (b.nest label).label b.store.cells.size = label :=
    (Store.label_append ..).trans ((Store.label_add ..).trans (if_pos rfl))
  exact ((Store.kept_addTrees trees _ _).2 _ hsize).trans hnew

namespace Flows

variable {b : Builder} (hb : b.Flows)
include hb

theorem extend (trees : List Tree) (ok : Bool) : (b.extend trees ok).Flows := by
  obtain ⟨hsize, hlabel⟩ := Store.kept_addTrees trees b.store b.current
  refine { hb with opened := fun handle hmem => ?_ }
  obtain ⟨hlt, hspace, hname⟩ := hb.opened handle hmem
  have hsame : (b.extend trees ok).label handle = b.label handle := hlabel handle hlt
  refine ⟨hlt.trans_le hsize, ?_, ?_⟩
  · rw [hsame]
    exact hspace
  · rw [name, hsame]
    exact hname

theorem label_nest_of_mem (label : Label) {handle : Handle} (hmem : handle ∈ b.stack) :
    (b.nest label).label handle = b.label handle := by
  have hne := Nat.ne_of_lt (hb.opened handle hmem).1
  exact (Store.label_append ..).trans ((Store.label_add ..).trans (if_neg hne))

theorem nest (label : Label) (hspace : label.space = .html) (hname : label.tag ∈ openNames) :
    (b.nest label).Flows := by
  have hsize : (b.nest label).store.cells.size = b.store.cells.size + 1 := by
    rw [Builder.nest, Store.size_append, Store.size_add]
  refine { hb with nonempty := List.cons_ne_nil _ _, opened := fun handle hmem => ?_ }
  rw [hsize]
  rcases List.mem_cons.mp hmem with rfl | hmem
  · have hnew : (b.nest label).label b.store.cells.size = label :=
      (Store.label_append ..).trans ((Store.label_add ..).trans (if_pos rfl))
    rw [name, hnew]
    exact ⟨Nat.lt_succ_self _, hspace, hname⟩
  · obtain ⟨hlt, hold⟩ := hb.opened handle hmem
    rw [name, hb.label_nest_of_mem label hmem]
    exact ⟨hlt.trans (Nat.lt_succ_self _), hold⟩

theorem takesInMode (token : Token) : b.takesInMode token = true := by
  obtain ⟨handle, outer, hstack⟩ := List.exists_cons_of_ne_nil hb.nonempty
  obtain ⟨-, hspace, -⟩ := hb.opened handle (by rw [hstack]; exact List.mem_cons_self)
  exact takesInMode_of_html hstack hspace token

theorem misplaces : b.misplaces = false := by
  rw [Builder.misplaces, hb.fosters, Bool.false_and]

theorem reconstruct : b.reconstruct = b := by
  unfold Builder.reconstruct
  rw [hb.formatting]
  rfl

/-- No element is in scope that none of the open ones is. -/
theorem inScope_eq_false (scope : Vocabulary.Scope) {tag : String} (htag : tag ∉ openNames) :
    b.inScope scope tag = false := by
  by_contra htrue
  obtain ⟨handle, hmem, hname⟩ := exists_of_inScope (Bool.eq_true_of_not_eq_false htrue)
  exact htag (hname ▸ (hb.opened handle hmem).2.2)

/-! ## Text -/

theorem addText (text : String) : b.addText text = b.extend [.ofText text] b.framesetOk := by
  have hstrays : b.strays.erase b.store.cells.size = b.strays := by rw [hb.strays]; rfl
  unfold Builder.addText Builder.extend
  rw [hb.misplaces]
  dsimp only [Builder.create, Builder.attach, Store.add]
  rw [hstrays]
  rfl

/-- Text goes to the innermost open element. -/
theorem exists_take_text {text : String} (hnull : text ≠ String.ofList [nullChar]) :
    ∃ ok, b.take (.text text) = b.extend [.ofText text] ok := by
  have htake : b.takeInMode (.text text) = (b.textInBody text).done := by
    rw [takeInMode, takeText, hb.mode]
  rw [take_of_done (hb.takesInMode _) htake, textInBody, if_neg hnull]
  dsimp only
  rw [hb.reconstruct, hb.addText]
  split
  next => exact ⟨false, rfl⟩
  next => exact ⟨b.framesetOk, rfl⟩

/-- White space goes to the innermost open element. -/
theorem take_space (text : String) :
    b.take (.space text) = b.extend [.ofText text] b.framesetOk := by
  have htake : b.takeInMode (.space text) = (b.spaceInBody text).done := by
    rw [takeInMode, takeSpace, hb.mode]
  rw [take_of_done (hb.takesInMode _) htake, spaceInBody, hb.dropNewline, if_neg (by simp),
    hb.reconstruct, hb.addText]

/-! ## Tags -/

theorem openElement (tag : Tag) : b.openElement tag = b.nest (b.labelOf .html tag) := by
  have hplace : (b.create (b.labelOf .html tag)).1.misplaces = false := by
    rw [Builder.misplaces]
    exact Bool.and_eq_false_imp.mpr fun htrue => absurd (hb.fosters ▸ htrue) (by simp)
  have hstrays : b.strays.erase b.store.cells.size = b.strays := by rw [hb.strays]; rfl
  unfold Builder.openElement openLabel
  dsimp only
  rw [place, hplace, if_neg Bool.false_ne_true]
  unfold attach Builder.nest
  dsimp only [Builder.create, Store.add]
  rw [hstrays]
  rfl

/-- A start tag opens its element. -/
theorem take_startTag {tag : Tag} (hname : tag.name = "div" ∨ tag.name = "span") :
    b.take (.startTag tag) = b.nest (b.labelOf .html tag) := by
  have htake : b.takeInMode (.startTag tag) = (b.openElement tag).done := by
    obtain ⟨name, attributes, selfClosing⟩ := tag
    rw [takeInMode, startTag, hb.mode]
    rcases hname with hname | hname
    · obtain rfl : name = "div" := hname
      change (b.openBlock _).done = _
      rw [openBlock, leaveParagraph, hb.inScope_eq_false .button (by decide), if_neg (by simp)]
    · obtain rfl : name = "span" := hname
      change (b.reconstruct.openElement _).done = _
      rw [hb.reconstruct]
  rw [take_of_done (hb.takesInMode _) htake, hb.openElement]

end Flows

section Innermost

variable {b : Builder} {handle : Handle} {outer : List Handle} (hstack : b.stack = handle :: outer)
include hstack

theorem inScope_innermost (scope : Vocabulary.Scope) (hspace : (b.label handle).space = .html) :
    b.inScope scope (b.name handle) = true := by
  rw [inScope, hstack, reaches, if_pos (by simp [hspace, name])]

theorem popImplied_innermost (except : String)
    (hstays : b.name handle ∉ Vocabulary.impliedEnds) : b.popImplied except = b := by
  rw [popImplied, hstack, List.dropWhile_cons_of_neg (by simp [hstays]), ← hstack]

theorem popThrough_innermost : b.popThrough [b.name handle] = { b with stack := outer } := by
  rw [popThrough, popTo, hstack, List.dropWhile_cons_of_neg (by simp)]
  rfl

end Innermost

/-- An end tag closes the innermost open element if it is that of the element. -/
theorem Flows.take_endTag {b : Builder} (hb : b.Flows) {handle : Handle} {outer : List Handle}
    (hstack : b.stack = handle :: outer)
    (hname : b.name handle = "div" ∨ b.name handle = "span") :
    b.take (.endTag (b.name handle)) = { b with stack := outer } := by
  obtain ⟨-, hspace, -⟩ := hb.opened handle (by rw [hstack]; exact List.mem_cons_self)
  have hstays : b.name handle ∉ Vocabulary.impliedEnds := by
    rcases hname with hname | hname
    · rw [hname]
      decide
    · rw [hname]
      decide
  have hbody : b.takeInMode (.endTag (b.name handle)) = b.endInBody (b.name handle) := by
    rw [takeInMode, endTag, hb.mode]
  have hend : b.endInBody (b.name handle) = Builder.done { b with stack := outer } := by
    rcases hname with hname | hname
    · have hscope := inScope_innermost hstack .ordinary hspace
      have hclose := popThrough_innermost hstack
      rw [hname] at hscope hclose ⊢
      change (if b.inScope .ordinary "div" then (b.popImplied "").popThrough ["div"]
        else b).done = _
      rw [if_pos hscope, popImplied_innermost hstack _ hstays, hclose]
    · have hlabel : ((b.label handle).tag == "span") = true := beq_iff_eq.mpr hname
      rw [hname]
      change (b.endOther "span").done = _
      rw [endOther, hstack, closeNamed, if_pos hlabel, popImplied_innermost hstack _ hstays]
      dsimp only
      rw [hstack, List.dropWhile_cons_of_neg (by simp)]
      rfl
  exact take_of_done (hb.takesInMode _) (hbody.trans hend)

/-- The end tag of the body ends it if nothing else is open in it. -/
theorem Flows.take_endBody {b : Builder} (hb : b.Flows) {handle : Handle} {outer : List Handle}
    (hstack : b.stack = handle :: outer) (hname : b.name handle = "body") :
    b.take (.endTag "body") = b.goto .afterBody := by
  obtain ⟨-, hspace, -⟩ := hb.opened handle (by rw [hstack]; exact List.mem_cons_self)
  have hscope := inScope_innermost hstack .ordinary hspace
  rw [hname] at hscope
  refine take_of_done (hb.takesInMode _) ?_
  rw [takeInMode, endTag, hb.mode]
  dsimp only
  rw [endInBody, if_pos rfl, if_pos hscope]

/-- The end tag of the root ends the document. -/
theorem Flows.take_endHtml {b : Builder} (hb : b.Flows) :
    (b.goto .afterBody).take (.endTag "html") = b.goto .afterAfterBody := by
  have htakes : (b.goto .afterBody).takesInMode (.endTag "html") = true :=
    hb.takesInMode (.endTag "html")
  refine take_of_done htakes ?_
  change (if (b.goto .afterBody).fragment then b.goto .afterBody
    else b.goto .afterAfterBody).done = _
  rw [if_neg]
  simp [goto, hb.fragment]

end Html.Builder

end Winnow
