import Winnow.Proofs.Html.Construction.Placing
import Winnow.Proofs.Html.Rooted.Stack
import Winnow.Proofs.Store.Held

/-!
# The root of a document under construction

Once the outermost element is open it stays open to the end, and it is the only element
directly below the document. New nodes go below elements that are open, so this comes down to
what is closed: elements are closed by their names, and the outermost one has a name of its own.
The head and the body stay in it, since what is moved is inside a formatting element.
-/

namespace Winnow.Html

/-- Is this an element other than the root? -/
def IsInner (store : Store) (root handle : Handle) : Prop :=
  (store.label handle).isElement = true ∧ handle ≠ root

theorem IsInner.of_label {store after : Store} {root handle : Handle}
    (hinner : IsInner store root handle) (hlabel : after.label handle = store.label handle) :
    IsInner after root handle :=
  ⟨(congrArg Label.isElement hlabel).trans hinner.1, hinner.2⟩

theorem IsInner.add {store : Store} {root handle : Handle} (hinner : IsInner store root handle)
    (label : Label) : IsInner (store.add label).1 root handle :=
  ⟨Store.isElement_add hinner.1 label, hinner.2⟩

/-- Is this an element other than the root and its parts? -/
def IsFree (store : Store) (root : Handle) (parts : List Handle) (handle : Handle) : Prop :=
  IsInner store root handle ∧ handle ∉ parts

theorem IsFree.of_label {store after : Store} {root handle : Handle} {parts : List Handle}
    (hfree : IsFree store root parts handle) (hlabel : after.label handle = store.label handle) :
    IsFree after root parts handle :=
  ⟨hfree.1.of_label hlabel, hfree.2⟩

theorem IsFree.add {store : Store} {root handle : Handle} {parts : List Handle}
    (hfree : IsFree store root parts handle) (label : Label) :
    IsFree (store.add label).1 root parts handle :=
  ⟨hfree.1.add label, hfree.2⟩

theorem IsFree.not_mem {store : Store} {root handle : Handle} {parts : List Handle}
    (hfree : IsFree store root parts handle) : handle ∉ root :: parts := by
  rw [List.mem_cons, not_or]
  exact ⟨hfree.1.2, hfree.2⟩

/-- In these modes elements are closed by their names only. -/
def Mode.closesByName : Mode → Bool
  | .initial => false
  | .beforeHtml => false
  | .head => false
  | .headNoscript => false
  | .text => false
  | _ => true

/-- Does a tag open an element? -/
def Tag.IsElement (tag : Tag) : Prop := Label.isElement { tag := tag.name } = true

namespace Builder

/-- Is the root open, and the only element directly below the document? Are these parts in it? -/
structure Rooted (root : Handle) (parts : List Handle) (b : Builder) : Prop where
  grounded : b.store.Grounded [root]
  hosts : b.store.Hosts root parts
  stack : EndsIn root (IsInner b.store root) b.stack
  shallow : Shallow parts b.stack
  formatting : ∀ handle, some handle ∈ b.formatting → IsFree b.store root parts handle
  head : ∀ handle ∈ b.headElement, IsInner b.store root handle ∧ b.name handle = "head"
  form : ∀ handle ∈ b.formElement, IsInner b.store root handle
  tableReturn : b.tableReturn.closesByName = true

/-- A rooted document in a mode that closes elements by their names only. -/
structure Careful (root : Handle) (parts : List Handle) (b : Builder) : Prop
    extends Rooted root parts b where
  mode : b.mode.closesByName = true

/-! ## Placing nodes -/

namespace Rooted

variable {root : Handle} {parts : List Handle} {b : Builder} (hb : b.Rooted root parts)
include hb

theorem of_frame {other : Builder} (hframe : other.frame = b.frame) : other.Rooted root parts := by
  simp only [frame, Prod.mk.injEq] at hframe
  obtain ⟨hstore, hstack, hformatting, hhead, hform, hreturn⟩ := hframe
  constructor
  · exact hstore ▸ hb.grounded
  · exact hstore ▸ hb.hosts
  · exact hstore ▸ hstack ▸ hb.stack
  · exact hstack ▸ hb.shallow
  · exact hstore ▸ hformatting ▸ hb.formatting
  · intro handle hmem
    rw [name, label, hstore]
    exact hb.head handle (hhead ▸ hmem)
  · exact hstore ▸ hform ▸ hb.form
  · exact hreturn ▸ hb.tableReturn

/-- A change of the nodes that keeps the root and its parts where they are and elements what they
are. -/
theorem of_store {other : Builder}
    (hsame : other = { b with store := other.store, strays := other.strays })
    (hgrounded : other.store.Grounded [root]) (hhosts : other.store.Hosts root parts)
    (htag : ∀ handle, (b.label handle).isElement = true →
      (other.label handle).tag = (b.label handle).tag) : other.Rooted root parts := by
  have hinner : ∀ handle, IsInner b.store root handle → IsInner other.store root handle :=
    fun handle hinner =>
      ⟨(Label.isElement_congr (htag handle hinner.1)).trans hinner.1, hinner.2⟩
  have hhead : ∀ handle ∈ b.headElement,
      IsInner other.store root handle ∧ other.name handle = "head" := by
    intro handle hmem
    obtain ⟨hold, hname⟩ := hb.head handle hmem
    exact ⟨hinner handle hold, (htag handle hold.1).trans hname⟩
  rw [hsame]
  constructor
  · exact hgrounded
  · exact hhosts
  · exact hb.stack.imp hinner
  · exact hb.shallow
  · exact fun handle hmem => (hb.formatting handle hmem).imp_left (hinner handle)
  · exact hhead
  · exact fun handle hmem => hinner handle (hb.form handle hmem)
  · exact hb.tableReturn

theorem root_eq : b.root = root := hb.stack.getLastD

theorem isElement_root : (b.label root).isElement = true :=
  hb.grounded.isElement_root List.mem_cons_self

theorem name_root : b.name root = "html" := (hb.grounded.root root List.mem_cons_self).1

theorem space_root : (b.label root).space = .html :=
  (hb.grounded.root root List.mem_cons_self).2

theorem ne_root {handle : Handle} {tag : String} (hname : b.name handle = tag)
    (htag : tag ≠ "html") : handle ≠ root := by
  rintro rfl
  exact htag (hname.symm.trans hb.name_root)

theorem isElement_of_mem {handle : Handle} (hmem : handle ∈ b.stack) :
    (b.label handle).isElement = true := by
  rcases hb.stack.of_mem hmem with rfl | hinner
  · exact hb.isElement_root
  · exact hinner.1

theorem isElement_current : (b.label b.current).isElement = true := by
  rcases hb.stack.headD with heq | hinner
  · exact (congrArg (fun handle => (b.label handle).isElement) heq).trans hb.isElement_root
  · exact hinner.1

/-- A new node is neither the root nor a part of it. -/
theorem size_not_mem : b.store.cells.size ∉ root :: parts := by
  rw [List.mem_cons, not_or]
  refine ⟨fun heq => Nat.lt_irrefl root ?_, fun hmem => Nat.lt_irrefl b.store.cells.size ?_⟩
  · conv_rhs => rw [← heq]
    exact Store.lt_size_of_isElement hb.isElement_root
  · exact Store.lt_size_of_isElement (hb.hosts.isElement_of_mem hmem)

/-- Content is put before a table, which is not the root, or into an element. -/
theorem fosterPlace :
    (∀ {parent table}, b.fosterPlace = (parent, some table) → IsInner b.store root table) ∧
      ∀ {parent}, b.fosterPlace = (parent, none) → (b.label parent).isElement = true := by
  unfold Builder.fosterPlace
  split
  next table outer hsearch =>
    have hname : b.name table = "table" := by
      have hhead := List.head?_dropWhile_not (fun handle => b.name handle != "table") b.stack
      rw [hsearch] at hhead
      simpa using hhead
    obtain ⟨-, hinner, houter⟩ :=
      hb.stack.of_dropWhile_eq_cons hsearch (hb.ne_root hname (by decide))
    split
    next parent _ =>
      refine ⟨fun heq => ?_, fun heq => by cases heq⟩
      cases heq
      exact hinner
    next =>
      refine ⟨fun heq => (by cases heq), fun heq => ?_⟩
      cases heq
      rcases houter.headD with hroot | hother
      · rw [hroot]
        exact hb.isElement_root
      · exact hother.1
  next =>
    refine ⟨fun heq => (by cases heq), fun heq => ?_⟩
    cases heq
    rw [hb.root_eq]
    exact hb.isElement_root

theorem insertBefore {parent table : Handle} (htable : IsInner b.store root table)
    (child : Handle) : Store.Grounded [root] (b.store.insertBefore parent child table).1 :=
  hb.grounded.insertBefore htable.1 (fun hmem => htable.2 (List.mem_singleton.mp hmem)) parent child

section Child

variable {child : Handle} (hchild : child ∉ root :: parts)
include hchild

theorem attach {parent : Handle} (hparent : (b.label parent).isElement = true) :
    (b.attach parent child).Rooted root parts :=
  hb.of_store rfl (hb.grounded.append hparent child) (hb.hosts.append hchild parent)
    fun _ _ => congrArg Label.tag (label_attach ..)

theorem foster : (b.foster child).Rooted root parts := by
  refine hb.of_store (foster_eq b child) ?_ ?_
    fun handle _ => congrArg Label.tag (label_foster ..)
  · unfold Builder.foster
    split
    next hplace => exact hb.insertBefore (hb.fosterPlace.1 hplace) child
    next hplace => exact (hb.attach hchild (hb.fosterPlace.2 hplace)).grounded
  · unfold Builder.foster
    split
    · exact hb.hosts.insertBefore hchild _ _
    · exact hb.hosts.append hchild _

theorem place : (b.place child).Rooted root parts := by
  unfold Builder.place
  split
  · exact hb.foster hchild
  · exact hb.attach hchild hb.isElement_current

end Child

theorem create (label : Label) : (b.create label).1.Rooted root parts :=
  hb.of_store rfl (hb.grounded.add label) (hb.hosts.add label) fun _ helement =>
    congrArg Label.tag (Store.label_add_of_lt (Store.lt_size_of_isElement helement) label)

/-- A new element is neither the root nor a part of it. -/
theorem isFree_create (label : Label) (hlabel : label.isElement = true) :
    IsFree (b.create label).1.store root parts (b.create label).2 := by
  obtain ⟨hne, hpart⟩ := not_or.mp (List.mem_cons.not.mp hb.size_not_mem)
  refine ⟨⟨?_, hne⟩, hpart⟩
  change ((b.store.add label).1.label b.store.cells.size).isElement = true
  rwa [Store.label_add, if_pos rfl]

/-! ## Opening elements -/

section Open

variable {label : Label} (hlabel : label.isElement = true)
include hlabel

theorem openLabel : (b.openLabel label).Rooted root parts := by
  have hplaced := (hb.create label).place hb.size_not_mem
  have hnew : IsFree (b.openLabel label).store root parts (b.create label).2 :=
    (hb.isFree_create label hlabel).of_label (label_place ..)
  exact { hplaced with
    stack := hplaced.stack.cons hnew.1
    shallow := hplaced.shallow.cons hnew.2 }

/-- The element that has just been opened is neither the root nor a part of it. -/
theorem isFree_current_openLabel :
    IsFree (b.openLabel label).store root parts (b.openLabel label).current :=
  (hb.isFree_create label hlabel).of_label (label_place ..)

theorem isInner_current_openLabel :
    IsInner (b.openLabel label).store root (b.openLabel label).current :=
  (hb.isFree_current_openLabel hlabel).1

end Open

/-- Elements are closed while the root stays open. -/
theorem close {stack : List Handle} (hsublist : stack.Sublist b.stack)
    (hstack : EndsIn root (IsInner b.store root) stack) :
    Rooted root parts { b with stack := stack } :=
  { hb with stack := hstack, shallow := hb.shallow.of_sublist hsublist }

/-- An element may be closed that is not the root. -/
theorem pop (hne : b.current ≠ root) : b.pop.Rooted root parts := by
  obtain ⟨first, rest, hstack⟩ := List.exists_cons_of_ne_nil hb.stack.ne_nil
  have hcurrent : b.current ∈ b.stack.head? := by
    rw [Builder.current, hstack]
    rfl
  exact hb.close (List.drop_sublist 1 _) (hb.stack.drop_one hcurrent hne)

theorem openElement {tag : Tag} (htag : tag.IsElement) : (b.openElement tag).Rooted root parts :=
  hb.openLabel htag

theorem openVoid {tag : Tag} (htag : tag.IsElement) : (b.openVoid tag).Rooted root parts :=
  (hb.openElement htag).pop (hb.isInner_current_openLabel htag).2

theorem openRaw {tag : Tag} (htag : tag.IsElement) (model : ContentModel) :
    (b.openRaw tag model).Rooted root parts :=
  (hb.openElement htag).of_frame rfl

/-! ## Text and attributes -/

theorem addText (text : String) : (b.addText text).Rooted root parts := by
  have hcreated := hb.create (.ofText text)
  have hnew : (b.create (.ofText text)).2 ∉ root :: parts := hb.size_not_mem
  unfold Builder.addText
  dsimp only
  split
  · split
    next hplace =>
      refine hcreated.of_store rfl (hcreated.insertBefore (hcreated.fosterPlace.1 hplace) _)
        (hcreated.hosts.insertBefore hnew _ _) ?_
      exact fun handle _ => congrArg Label.tag (Store.label_insertBefore ..)
    next hplace => exact hcreated.attach hnew (hcreated.fosterPlace.2 hplace)
  · exact hcreated.attach hnew hcreated.isElement_current

/-- A comment stands in an element or directly below the document. -/
theorem addComment {parent : Handle} (text : String)
    (hparent : parent = 0 ∨ (b.label parent).isElement = true) :
    (b.addComment parent text).Rooted root parts := by
  have hcreated := hb.create (.ofComment text)
  rcases hparent with rfl | helement
  · refine hcreated.of_store rfl (hb.grounded.append_comment text)
      (hcreated.hosts.append hb.size_not_mem 0) ?_
    exact fun handle _ => congrArg Label.tag (label_attach ..)
  · exact hcreated.attach hb.size_not_mem (Store.isElement_add helement _)

theorem addMissing (handle : Handle) (attributes : Assoc String) :
    (b.addMissing handle attributes).Rooted root parts := by
  exact hb.of_store rfl (hb.grounded.setAttributes handle _) (hb.hosts.setAttributes handle _)
    fun other _ => Store.tag_setAttributes ..

theorem expect (ok : Bool) : (b.expect ok).Rooted root parts := by
  unfold Builder.expect
  split
  · exact hb
  · exact hb.of_frame rfl

/-! ## Closing elements by name -/

theorem popTo {tags : List String} (hroot : "html" ∈ tags) : (b.popTo tags).Rooted root parts := by
  refine hb.close (List.dropWhile_sublist _) (hb.stack.dropWhile ?_)
  rw [hb.name_root, List.contains_iff_mem.mpr hroot]
  rfl

theorem popImplied (except : String) : (b.popImplied except).Rooted root parts := by
  refine hb.close (List.dropWhile_sublist _) (hb.stack.dropWhile ?_)
  rw [hb.name_root]
  rfl

/-- Elements are closed up to one that is open and has one of the names. -/
theorem popThrough {tags : List String} {handle : Handle} (hmem : handle ∈ b.stack)
    (hname : b.name handle ∈ tags) (hroot : "html" ∉ tags) :
    (b.popThrough tags).Rooted root parts := by
  refine hb.close (sublist_drop_dropWhile _ _)
    (hb.stack.drop_dropWhile hmem ?_ ?_)
  · rw [List.contains_iff_mem.mpr hname]
    rfl
  · rintro rfl
    exact hroot (hb.name_root ▸ hname)

end Rooted

end Builder

end Winnow.Html
