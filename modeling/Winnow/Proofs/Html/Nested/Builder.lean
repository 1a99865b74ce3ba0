import Winnow.Proofs.Html.Nested.Names
import Winnow.Proofs.Html.Rooted.Formatting

/-!
# Documents under construction without foreign elements

Where no foreign element is opened, everything that is open is HTML, and what an operation does to
the names of the open elements depends on these names alone. New nodes get new handles, so the
names of what is open or to be continued stay what they are.
-/

namespace Winnow.Html.Builder

/-- The names of the open elements, the innermost first. -/
def stackNames (b : Builder) : List String := b.stack.map b.name

/-- A whole document in which all is HTML and nothing has gone wrong. -/
structure Plain (b : Builder) : Prop where
  html : ∀ handle, (b.label handle).space = .html
  whole : b.fragment = false
  fault : b.fault = none
  stack : ∀ handle ∈ b.stack, handle < b.store.cells.size
  nodup : b.stack.Nodup
  formatting : ∀ handle, some handle ∈ b.formatting →
    handle < b.store.cells.size ∧ b.name handle ∈ formattingNames
  form : ∀ handle ∈ b.formElement, handle < b.store.cells.size ∧ b.name handle = "form"
  head : ∀ handle ∈ b.headElement, handle < b.store.cells.size ∧ b.name handle = "head"

/-- Has one builder the nodes of another, under their names? -/
structure Grown (b other : Builder) : Prop where
  size : b.store.cells.size ≤ other.store.cells.size
  name : ∀ handle < b.store.cells.size, other.name handle = b.name handle

namespace Grown

variable {b middle other : Builder}

theorem refl (b : Builder) : b.Grown b := ⟨Nat.le_refl _, fun _ _ => rfl⟩

theorem of_store (hstore : other.store = b.store) : b.Grown other where
  size := Nat.le_of_eq (congrArg (·.cells.size) hstore.symm)
  name := fun handle _ => congrArg (fun store => (store.label handle).tag) hstore

theorem trans (hfirst : b.Grown middle) (hsecond : middle.Grown other) : b.Grown other where
  size := Nat.le_trans hfirst.size hsecond.size
  name := fun handle hlt =>
    (hsecond.name handle (Nat.lt_of_lt_of_le hlt hfirst.size)).trans (hfirst.name handle hlt)

/-- What is known of a node by its name stays known. -/
theorem keeps (hgrown : b.Grown other) {p : String → Prop} {handle : Handle}
    (hknown : handle < b.store.cells.size ∧ p (b.name handle)) :
    handle < other.store.cells.size ∧ p (other.name handle) := by
  rw [hgrown.name handle hknown.1]
  exact ⟨Nat.lt_of_lt_of_le hknown.1 hgrown.size, hknown.2⟩

theorem map_name (hgrown : b.Grown other) {handles : List Handle}
    (hlt : ∀ handle ∈ handles, handle < b.store.cells.size) :
    handles.map other.name = handles.map b.name :=
  List.map_congr_left fun handle hmem => hgrown.name handle (hlt handle hmem)

end Grown

/-! ## Names of what is open -/

section Names

variable {b : Builder}

theorem currentName_eq {tag : String} {rest : List String} (hnames : b.stackNames = tag :: rest) :
    b.currentName = tag := by
  obtain ⟨handle, handles, hstack, hname, -⟩ := List.map_eq_cons_iff.mp hnames
  rw [currentName, current, hstack]
  exact hname

theorem stackNames_pop (b : Builder) : b.pop.stackNames = b.stackNames.drop 1 := List.map_drop

theorem stackNames_popTo (b : Builder) (tags : List String) :
    (b.popTo tags).stackNames = b.stackNames.dropWhile (!tags.contains ·) := by
  rw [stackNames, stackNames, List.dropWhile_map]
  rfl

theorem stackNames_popThrough (b : Builder) (tags : List String) :
    (b.popThrough tags).stackNames = (b.stackNames.dropWhile (!tags.contains ·)).drop 1 := by
  rw [popThrough, stackNames_pop, stackNames_popTo]

theorem stackNames_popImplied (b : Builder) (except : String) :
    (b.popImplied except).stackNames = b.stackNames.dropWhile fun tag =>
      Vocabulary.impliedEnds.contains tag && tag != except := by
  rw [stackNames, stackNames, List.dropWhile_map]
  rfl

end Names

namespace Plain

variable {b : Builder} (hb : b.Plain)
include hb

theorem reaches_eq (scope : Vocabulary.Scope) (tag : String) (handles : List Handle) :
    b.reaches scope (fun handle =>
      decide ((b.label handle).space = .html) && (b.label handle).tag == tag) handles =
        reachesName scope tag (handles.map b.name) := by
  induction handles with
  | nil => rfl
  | cons handle rest ih =>
      rw [reaches, List.map_cons, reachesName, ih, hb.html handle]
      rfl

/-- What is in scope depends on the names of the open elements. -/
theorem inScope_eq (scope : Vocabulary.Scope) (tag : String) :
    b.inScope scope tag = reachesName scope tag b.stackNames :=
  hb.reaches_eq scope tag b.stack

theorem inForeign : b.inForeign = false := by
  unfold Builder.inForeign
  split
  · rfl
  · exact decide_eq_false (not_not_intro (hb.html _))

theorem takesInMode (token : Token) : b.takesInMode token = true := by
  unfold Builder.takesInMode
  split
  · rfl
  next handle _ _ =>
    dsimp only
    rw [hb.html handle]
    rfl

end Plain

/-- An expectation that is met. -/
theorem expect_eq {b : Builder} {ok : Bool} (hok : ok = true) : b.expect ok = b := by
  rw [expect, hok]
  rfl

/-! ## New nodes -/

section Sizes

variable (b : Builder) (parent child : Handle)

theorem size_place : (b.place child).store.cells.size = b.store.cells.size := by
  unfold place foster
  split
  · split
    · exact Store.size_insertBefore ..
    · exact Store.size_append ..
  · exact Store.size_append ..

theorem size_create (label : Label) :
    (b.create label).1.store.cells.size = b.store.cells.size + 1 := Array.size_push ..

theorem size_openLabel (label : Label) :
    (b.openLabel label).store.cells.size = b.store.cells.size + 1 :=
  (size_place ..).trans (size_create b label)

theorem size_addText (text : String) :
    (b.addText text).store.cells.size = b.store.cells.size + 1 := by
  refine Eq.trans ?_ (size_create b (.ofText text))
  unfold addText
  dsimp only
  split
  · split
    · exact Store.size_insertBefore ..
    · exact Store.size_append ..
  · exact Store.size_append ..

theorem size_addComment (text : String) :
    (b.addComment parent text).store.cells.size = b.store.cells.size + 1 :=
  (Store.size_append ..).trans (size_create b (.ofComment text))

end Sizes

section Growth

variable (b : Builder)

/-- A new node takes the handle after the others. -/
theorem label_create (label : Label) (handle : Handle) : (b.create label).1.label handle =
    if handle = b.store.cells.size then label else b.label handle :=
  Store.label_add ..

theorem grown_create (label : Label) : b.Grown (b.create label).1 where
  size := by
    rw [size_create]
    exact Nat.le_succ _
  name := fun handle hlt => by
    rw [name, label_create, if_neg (Nat.ne_of_lt hlt)]
    rfl

theorem grown_openLabel (label : Label) : b.Grown (b.openLabel label) where
  size := by
    rw [size_openLabel]
    exact Nat.le_succ _
  name := fun handle hlt => congrArg Label.tag (label_openLabel_of_lt b handle label hlt)

theorem grown_addText (text : String) : b.Grown (b.addText text) where
  size := by
    rw [size_addText]
    exact Nat.le_succ _
  name := fun handle hlt => congrArg Label.tag (label_addText_of_lt b handle text hlt)

theorem grown_addComment (parent : Handle) (text : String) :
    b.Grown (b.addComment parent text) where
  size := by
    rw [size_addComment]
    exact Nat.le_succ _
  name := fun handle hlt => congrArg Label.tag (label_addComment_of_lt b parent handle text hlt)

theorem label_openLabel (label : Label) (handle : Handle) : (b.openLabel label).label handle =
    if handle = b.store.cells.size then label else b.label handle :=
  (label_place ..).trans (label_create ..)

theorem label_addText (text : String) (handle : Handle) : (b.addText text).label handle =
    if handle = b.store.cells.size then .ofText text else b.label handle := by
  refine Eq.trans ?_ (label_create b (.ofText text) handle)
  unfold addText
  dsimp only
  split
  · split
    · exact Store.label_insertBefore ..
    · exact Store.label_append ..
  · exact Store.label_append ..

theorem label_addComment (parent : Handle) (text : String) (handle : Handle) :
    (b.addComment parent text).label handle =
      if handle = b.store.cells.size then .ofComment text else b.label handle :=
  (Store.label_append ..).trans (label_create ..)

end Growth

namespace Plain

variable {b : Builder} (hb : b.Plain)
include hb

/-- A change of the flags. -/
theorem of_core {other : Builder} (hcore : other.core = b.core) :
    other.Plain ∧ other.stackNames = b.stackNames := by
  simp only [core, frame, Prod.mk.injEq] at hcore
  obtain ⟨⟨hstore, hstack, hformatting, hhead, hform, -⟩, -, hfragment, -, hfault⟩ := hcore
  have hname : other.name = b.name := by
    funext handle
    rw [name, label, hstore]
    rfl
  refine ⟨⟨fun handle => ?_, hfragment.trans hb.whole, hfault.trans hb.fault,
    hstore ▸ hstack ▸ hb.stack, hstack ▸ hb.nodup, hname ▸ hstore ▸ hformatting ▸ hb.formatting,
    hname ▸ hstore ▸ hform ▸ hb.form, hname ▸ hstore ▸ hhead ▸ hb.head⟩, ?_⟩
  · rw [label, hstore]
    exact hb.html handle
  · rw [stackNames, hname, hstack]
    rfl

/-- A change of the nodes that keeps what is there under its name. -/
theorem of_grown {other : Builder}
    (hsame : other = { b with store := other.store, strays := other.strays })
    (hgrown : b.Grown other) (hhtml : ∀ handle, (other.label handle).space = .html) :
    other.Plain := by
  rw [hsame] at hgrown hhtml ⊢
  exact {
    html := hhtml
    whole := hb.whole
    fault := hb.fault
    stack := fun handle hmem => Nat.lt_of_lt_of_le (hb.stack handle hmem) hgrown.size
    nodup := hb.nodup
    formatting := fun handle hmem => hgrown.keeps (hb.formatting handle hmem)
    form := fun handle hmem => hgrown.keeps (p := (· = "form")) (hb.form handle hmem)
    head := fun handle hmem => hgrown.keeps (p := (· = "head")) (hb.head handle hmem) }

/-- A node of HTML may be added. -/
theorem space_of_label {other : Builder} {label : Label} (hspace : label.space = .html)
    (hlabel : ∀ handle, other.label handle =
      if handle = b.store.cells.size then label else b.label handle) :
    ∀ handle, (other.label handle).space = .html := by
  intro handle
  rw [hlabel]
  split
  · exact hspace
  · exact hb.html handle

theorem create {label : Label} (hspace : label.space = .html) : (b.create label).1.Plain :=
  hb.of_grown rfl (grown_create b label) (hb.space_of_label hspace (label_create b label))

theorem place (child : Handle) : (b.place child).Plain := by
  have hgrown : b.Grown (b.place child) :=
    ⟨Nat.le_of_eq (size_place b child).symm, fun _ _ => congrArg Label.tag (label_place ..)⟩
  refine hb.of_grown (place_eq b child) hgrown fun handle => ?_
  rw [label_place]
  exact hb.html handle

theorem openLabel {label : Label} (hspace : label.space = .html) : (b.openLabel label).Plain := by
  have hplaced := (hb.create hspace).place (b.create label).2
  have hfresh : b.store.cells.size ∉ b.stack := fun hmem =>
    Nat.lt_irrefl _ (hb.stack _ hmem)
  have hstack := stack_openLabel b label
  refine { hplaced with stack := fun handle hmem => ?_, nodup := ?_ }
  · rcases List.mem_cons.mp hmem with rfl | hmem
    · exact Nat.lt_of_lt_of_eq (Nat.lt_succ_self _) (size_openLabel b label).symm
    · exact hplaced.stack handle hmem
  · rw [hstack]
    exact List.nodup_cons.mpr ⟨hfresh, hb.nodup⟩

theorem stackNames_openLabel (label : Label) :
    (b.openLabel label).stackNames = label.tag :: b.stackNames := by
  rw [stackNames, stack_openLabel, List.map_cons, (grown_openLabel b label).map_name hb.stack, name,
    label_openLabel, if_pos rfl]
  rfl

theorem openElement (tag : Tag) : (b.openElement tag).Plain := hb.openLabel rfl

theorem stackNames_openElement (tag : Tag) :
    (b.openElement tag).stackNames = tag.name :: b.stackNames :=
  hb.stackNames_openLabel (b.labelOf .html tag)

theorem addText (text : String) : (b.addText text).Plain :=
  hb.of_grown (addText_eq b text) (grown_addText b text)
    (hb.space_of_label rfl (label_addText b text))

theorem stackNames_addText (text : String) : (b.addText text).stackNames = b.stackNames := by
  rw [stackNames, stack_addText, (grown_addText b text).map_name hb.stack]
  rfl

theorem addComment (parent : Handle) (text : String) : (b.addComment parent text).Plain :=
  hb.of_grown rfl (grown_addComment b parent text)
    (hb.space_of_label rfl (label_addComment b parent text))

theorem stackNames_addComment (parent : Handle) (text : String) :
    (b.addComment parent text).stackNames = b.stackNames :=
  (grown_addComment b parent text).map_name hb.stack

omit hb in
theorem grown_addMissing (handle : Handle) (attributes : Assoc String) :
    b.Grown (b.addMissing handle attributes) where
  size := Nat.le_of_eq (Store.size_setAttributes ..).symm
  name := fun _ _ => Store.tag_setAttributes ..

theorem addMissing (handle : Handle) (attributes : Assoc String) :
    (b.addMissing handle attributes).Plain :=
  hb.of_grown rfl (grown_addMissing handle attributes) fun other =>
    (Store.space_setAttributes ..).trans (hb.html other)

theorem stackNames_addMissing (handle : Handle) (attributes : Assoc String) :
    (b.addMissing handle attributes).stackNames = b.stackNames :=
  (grown_addMissing handle attributes).map_name hb.stack

/-- Elements are closed. -/
theorem close {stack : List Handle} (hsublist : stack.Sublist b.stack) :
    Plain { b with stack := stack } :=
  { hb with
    stack := fun handle hmem => hb.stack handle (hsublist.subset hmem)
    nodup := hb.nodup.sublist hsublist }

theorem openVoid (tag : Tag) : (b.openVoid tag).Plain := by
  exact (hb.openElement tag).close (List.drop_sublist 1 _)

theorem stackNames_openVoid (tag : Tag) : (b.openVoid tag).stackNames = b.stackNames := by
  rw [Builder.openVoid, stackNames_pop, hb.stackNames_openElement]
  rfl

end Plain

/-! ## What holds the next element -/

/-- The innermost open element that calls for a mode has this name, and these are the modes. -/
structure Inside (holder : String) (modes : Mode × Mode × Mode) (b : Builder) : Prop
    extends Plain b where
  nested : ∃ tight, Nested holder tight b.stackNames
  modes_eq : b.modes = modes

namespace Inside

variable {holder : String} {modes : Mode × Mode × Mode} {b : Builder} (hb : b.Inside holder modes)
include hb

theorem of_core {other : Builder} (hcore : other.core = b.core) : other.Inside holder modes := by
  obtain ⟨hplain, hnames⟩ := hb.toPlain.of_core hcore
  simp only [core, Prod.mk.injEq] at hcore
  exact ⟨hplain, hnames ▸ hb.nested, hcore.2.1.trans hb.modes_eq⟩

theorem goto (mode : Mode) : (b.goto mode).Inside holder (mode, modes.2) where
  toPlain := { hb.toPlain with }
  nested := hb.nested
  modes_eq := by
    rw [← hb.modes_eq]
    rfl

/-- Elements are closed. -/
theorem close {base : String} {stack : List Handle} (hsublist : stack.Sublist b.stack)
    (hnested : ∃ tight, Nested base tight (stack.map b.name)) :
    Inside base modes { b with stack := stack } where
  toPlain := hb.toPlain.close hsublist
  nested := hnested
  modes_eq := hb.modes_eq

theorem addText (text : String) : (b.addText text).Inside holder modes where
  toPlain := hb.toPlain.addText text
  nested := by
    rw [hb.stackNames_addText]
    exact hb.nested
  modes_eq := (modes_addText b text).trans hb.modes_eq

theorem addMissing (handle : Handle) (attributes : Assoc String) :
    (b.addMissing handle attributes).Inside holder modes where
  toPlain := hb.toPlain.addMissing handle attributes
  nested := by
    rw [hb.stackNames_addMissing]
    exact hb.nested
  modes_eq := hb.modes_eq

/-- An element is opened that stands in what is open. -/
theorem openLabel {base : String} {label : Label} (hspace : label.space = .html)
    (hnested : ∃ tight, Nested base tight (label.tag :: b.stackNames)) :
    (b.openLabel label).Inside base modes where
  toPlain := hb.toPlain.openLabel hspace
  nested := by
    rw [hb.stackNames_openLabel]
    exact hnested
  modes_eq := (modes_openLabel b label).trans hb.modes_eq

/-- An element that is closed at once may stand anywhere. -/
theorem openVoid (tag : Tag) : (b.openVoid tag).Inside holder modes where
  toPlain := hb.toPlain.openVoid tag
  nested := by
    rw [hb.stackNames_openVoid]
    exact hb.nested
  modes_eq := (modes_openLabel b (b.labelOf .html tag)).trans hb.modes_eq

/-- Elements are closed up to one of a name that is met at the holder at the latest. -/
theorem popImplied (except : String) : (b.popImplied except).Inside holder modes := by
  obtain ⟨tight, hnested⟩ := hb.nested
  have hstops : (Vocabulary.impliedEnds.contains holder && holder != except) = false := by
    have hknown : ∀ tag ∈ Vocabulary.impliedEnds, IsLoose tag := by decide
    have hnot : holder ∉ Vocabulary.impliedEnds :=
      fun hmem => hnested.not_isLoose_holder (hknown holder hmem)
    simp [hnot]
  refine hb.close (List.dropWhile_sublist _) ?_
  have hleft := hnested.dropWhile
    (fun tag => Vocabulary.impliedEnds.contains tag && tag != except) hstops
  rwa [← stackNames_popImplied] at hleft

end Inside

end Winnow.Html.Builder
