import Mathlib.Data.List.InsertIdx
import Winnow.Proofs.Html.Rooted.Careful

/-!
# The root at the end of a formatting element

The end tag of a formatting element rearranges what is open between a block and the element.
All of that is inside the element, and the element is not the root.
-/

namespace Winnow.Html.Builder

namespace Careful

variable {root : Handle} {parts : List Handle} {b : Builder} (hb : b.Careful root parts)
include hb

/-- Content is moved out of an element that is not the root. -/
theorem moveContent {source target : Handle} (hsource : IsFree b.store root parts source)
    (htarget : (b.label target).isElement = true) :
    (b.moveContent source target).Careful root parts := by
  have hchildren : ∀ child ∈ b.store.children source, child ∉ root :: parts := fun child =>
    hb.hosts.not_mem_of_mem_children (hb.grounded.ne_zero hsource.1.1) hsource.1.2
  have hattach : ∀ (handles : List Handle) {b : Builder}, b.Careful root parts →
      (b.label target).isElement = true → (∀ child ∈ handles, child ∉ root :: parts) →
        (handles.foldl (fun b child => b.attach target child) b).Careful root parts := by
    intro handles
    induction handles with
    | nil => exact fun hb _ _ => hb
    | cons child rest ih =>
        intro b hb htarget hfree
        exact ih (hb.attach (hfree child List.mem_cons_self) htarget) (by rwa [label_attach])
          fun other hmem => hfree other (List.mem_cons_of_mem _ hmem)
  have hremove : ∀ (handles : List Handle) {store : Store}, store.Grounded [root] →
      store.Hosts root parts → (∀ child ∈ handles, child ∉ root :: parts) →
        (handles.foldl (fun store child => store.removeChild source child) store).Grounded
            [root] ∧
          (handles.foldl (fun store child => store.removeChild source child) store).Hosts
            root parts := by
    intro handles
    induction handles with
    | nil => exact fun hgrounded hhosts _ => ⟨hgrounded, hhosts⟩
    | cons child rest ih =>
        intro store hgrounded hhosts hfree
        exact ih (hgrounded.removeChild source child)
          (hhosts.removeChild (hfree child List.mem_cons_self) source)
          fun other hmem => hfree other (List.mem_cons_of_mem _ hmem)
  obtain ⟨hgrounded, hhosts⟩ := hremove _ hb.grounded hb.hosts hchildren
  have hemptied : Careful root parts { b with
      store := (b.store.children source).foldl
        (fun store child => store.removeChild source child) b.store } := by
    refine ⟨hb.of_store rfl hgrounded hhosts fun handle _ => ?_, hb.mode⟩
    exact congrArg Label.tag (label_foldl_removeChild ..)
  refine hattach _ hemptied ((congrArg Label.isElement (label_foldl_removeChild ..)).trans htarget)
    fun child hmem => hchildren child (mem_of_mem_followers hmem)

theorem foster {child : Handle} (hchild : child ∉ root :: parts) :
    (b.foster child).Careful root parts :=
  ⟨hb.toRooted.foster hchild, (congrArg Builder.mode (foster_eq b child)).symm ▸ hb.mode⟩

theorem placeIn {parent child : Handle} (hparent : (b.label parent).isElement = true)
    (hchild : child ∉ root :: parts) : (b.placeIn parent child).Careful root parts := by
  have hdetached := hb.detach hchild
  unfold Builder.placeIn
  dsimp only
  split
  · exact hdetached.foster hchild
  · exact hdetached.attach hchild ((congrArg Label.isElement (Store.label_detach ..)).trans hparent)

/-- A copy takes the place of an element among those that are open and those to be continued. -/
theorem replaceOpen {handle copy : Handle} (hne : handle ≠ root)
    (hcopy : IsFree b.store root parts copy) (position : Nat) :
    Careful root parts { b with
      formatting := b.formatting.set position (some copy)
      stack := b.stack.map fun other => if other = handle then copy else other } := by
  refine { hb with
    stack := hb.stack.replace hne hcopy.1
    shallow := hb.shallow.replace hcopy.2
    formatting := fun other hmem => ?_ }
  rcases List.mem_or_eq_of_mem_set hmem with hold | heq
  · exact hb.formatting other hold
  · cases heq
    exact hcopy

/-- What is on the way from a block out to a formatting element stays inside the root. -/
theorem climb (block : Handle) (count : Nat) (between front : List Handle)
    (node : Handle) (later : Nat)
    (hfront : ∀ handle ∈ front ++ between, IsFree b.store root parts handle)
    (hnode : node ∉ root :: parts) :
    let chain := Builder.climb block count between
      { builder := b, between := front, node := node, later := later }
    chain.builder.Careful root parts ∧ chain.node ∉ root :: parts ∧
      (∀ handle ∈ chain.between, IsFree chain.builder.store root parts handle) ∧
      ∀ handle, IsInner b.store root handle → IsInner chain.builder.store root handle := by
  induction count generalizing b between front node later with
  | zero => exact ⟨hb, hnode, hfront, fun _ hinner => hinner⟩
  | succ count ih =>
      cases between with
      | nil =>
          rw [List.append_nil] at hfront
          exact ⟨hb, hnode, hfront, fun _ hinner => hinner⟩
      | cons handle outer =>
          have hhandle := hfront handle (List.mem_append_right _ List.mem_cons_self)
          have hrest : ∀ other ∈ front ++ outer, IsFree b.store root parts other :=
            fun other hmem => hfront other
              ((List.Sublist.append_left (List.sublist_cons_self _ _) _).subset hmem)
          unfold Builder.climb
          dsimp only
          split
          -- What is not continued is closed; of the rest copies take the place.
          next =>
            have herased : Careful root parts { b with stack := b.stack.erase handle } :=
              hb.close List.erase_sublist (hb.stack.erase hhandle.1.2)
            exact ih herased outer front node later hrest hnode
          next position _ =>
            have hcopy := hb.isFree_create (b.label handle) hhandle.1.1
            have hcopied := ((hb.create (b.label handle)).replaceOpen hhandle.1.2 hcopy
              position).attach hnode hcopy.1.1
            have hkept : ∀ other, IsInner b.store root other → IsInner
                ((b.store.add (b.label handle)).1.append b.store.cells.size node) root other :=
              fun other hinner => (hinner.add _).of_label (Store.label_append ..)
            have hnext : ∀ other ∈ front ++ [b.store.cells.size] ++ outer, IsFree
                ((b.store.add (b.label handle)).1.append b.store.cells.size node)
                  root parts other := by
              intro other hmem
              rw [List.append_assoc, List.mem_append, List.singleton_append, List.mem_cons] at hmem
              rcases hmem with hold | rfl | hold
              · exact (hrest other (List.mem_append_left _ hold)).imp_left (hkept other)
              · exact hcopy.of_label (Store.label_append ..)
              · exact (hrest other (List.mem_append_right _ hold)).imp_left (hkept other)
            obtain ⟨hclimbed, hmoved, hinside, hmore⟩ := ih hcopied outer _ b.store.cells.size
              (if node = block then position - 1 else later) hnext hb.size_not_mem
            exact ⟨hclimbed, hmoved, hinside, fun other hinner => hmore other (hkept other hinner)⟩

/-- A formatting element inside the root is split at a block inside it. -/
theorem splitAtBlock {element block : Handle} {inner between outer : List Handle}
    (helement : IsFree b.store root parts element) (hblock : IsFree b.store root parts block)
    (hinner : ∀ handle ∈ inner, IsFree b.store root parts handle)
    (hbetween : ∀ handle ∈ between, IsFree b.store root parts handle)
    (houter : EndsIn root (IsInner b.store root) outer) (hshallow : Shallow parts outer) :
    (b.splitAtBlock element block inner between outer).Careful root parts := by
  unfold Builder.splitAtBlock
  dsimp only
  -- Each stage is generalized once its labels are known to be those of the stage before.
  obtain ⟨hchain, hnode, hinside, hmore⟩ := hb.climb block 3 between [] block
    ((b.formatting.idxOf? (some element)).getD 0) (by simpa using hbetween) hblock.not_mem
  generalize Builder.climb block 3 between _ = chain at hchain hnode hinside hmore ⊢
  have hhost : (chain.builder.label (outer.headD 0)).isElement = true := by
    rcases houter.headD with heq | hhead
    · rw [heq]
      exact hchain.isElement_root
    · exact (hmore _ hhead).1
  have hplaced := hchain.placeIn hhost hnode
  have hplacedInner : ∀ handle, IsInner chain.builder.store root handle →
      IsInner (chain.builder.placeIn (outer.headD 0) chain.node).store root handle :=
    fun handle hinner => hinner.of_label (label_placeIn ..)
  generalize chain.builder.placeIn (outer.headD 0) chain.node = placed at hplaced hplacedInner ⊢
  have hcreated := hplaced.create (placed.label element)
  have hcopy := hplaced.isFree_create (placed.label element)
    (hplacedInner element (hmore element helement.1)).1
  have hcreatedInner : ∀ handle, IsInner chain.builder.store root handle →
      IsInner (placed.create (placed.label element)).1.store root handle :=
    fun handle hinner => (hplacedInner handle hinner).add _
  generalize placed.create (placed.label element) = created at hcreated hcopy hcreatedInner ⊢
  have hmovedInner : ∀ handle, IsInner created.1.store root handle →
      IsInner ((created.1.moveContent block created.2).attach block created.2).store root handle :=
    fun handle hinner => hinner.of_label ((label_attach ..).trans (label_moveContent ..))
  have hcreatedBlock : IsFree created.1.store root parts block :=
    hblock.imp_left fun hinner => hcreatedInner block (hmore block hinner)
  have hblockElement : ((created.1.moveContent block created.2).label block).isElement = true :=
    (congrArg Label.isElement (label_moveContent ..)).trans hcreatedBlock.1.1
  have hmoved := (hcreated.moveContent hcreatedBlock hcopy.1.1).attach hcopy.not_mem hblockElement
  generalize (created.1.moveContent block created.2).attach block created.2 = moved
    at hmoved hmovedInner ⊢
  have hlater : ∀ handle, IsInner chain.builder.store root handle →
      IsInner moved.store root handle :=
    fun handle hinner => hmovedInner handle (hcreatedInner handle hinner)
  have hopened : ∀ handle ∈ inner ++ created.2 :: block :: chain.between,
      IsFree moved.store root parts handle := by
    intro handle hmem
    rw [List.mem_append, List.mem_cons, List.mem_cons] at hmem
    rcases hmem with hmem | rfl | rfl | hmem
    · exact (hinner handle hmem).imp_left fun hold => hlater handle (hmore handle hold)
    · exact hcopy.imp_left (hmovedInner created.2)
    · exact hblock.imp_left fun hold => hlater handle (hmore handle hold)
    · exact (hinside handle hmem).imp_left (hlater handle)
  -- The stack keeps its outer part, so the root stays at its end.
  refine { hmoved with
    stack := (houter.imp fun handle hinner => hlater handle (hmore handle hinner)).append
      fun handle hmem => (hopened handle hmem).1
    shallow := hshallow.append fun handle hmem => (hopened handle hmem).2
    formatting := fun handle hmem => ?_ }
  rcases List.eq_or_mem_of_mem_insertIdx hmem with heq | hold
  · cases heq
    exact hcopy.imp_left (hmovedInner created.2)
  · exact hmoved.formatting handle (List.mem_of_mem_erase hold)

omit hb in
theorem some_mem_of_mem_sinceMarker {entries : List (Option Handle)} {handle : Handle}
    (hmem : handle ∈ sinceMarker entries) : some handle ∈ entries := by
  induction entries with
  | nil => cases hmem
  | cons entry rest ih =>
      cases entry with
      | none => cases hmem
      | some first =>
          unfold sinceMarker at hmem
          rcases List.mem_cons.mp hmem with rfl | hrest
          · exact List.mem_cons_self
          · exact List.mem_cons_of_mem _ (ih hrest)

/-- A formatting element that is looked for is neither the root nor a part of it. -/
theorem isFree_of_formattingNamed {tag : String} {element : Handle}
    (hnamed : b.formattingNamed tag = some element) : IsFree b.store root parts element :=
  hb.formatting element (some_mem_of_mem_sinceMarker (List.mem_of_find?_eq_some hnamed))

theorem endFormattingIn {tag : String} (htag : tag ≠ "html") (rounds : Nat) :
    (b.endFormattingIn tag rounds).Careful root parts := by
  induction rounds generalizing b with
  | zero => exact hb
  | succ rounds ih =>
      unfold Builder.endFormattingIn
      dsimp only
      split
      next => exact hb.endOther htag
      next element hnamed =>
        have helement := hb.isFree_of_formattingNamed hnamed
        split
        next => exact hb.formatting_subset List.erase_subset
        next hopen =>
          have hopen : element ∈ b.stack := by simpa using hopen
          have hsublist : ((b.stack.dropWhile (· != element)).drop 1).Sublist b.stack :=
            sublist_drop_dropWhile _ _
          have houter : EndsIn root (IsInner b.store root)
              ((b.stack.dropWhile (· != element)).drop 1) :=
            hb.stack.drop_dropWhile hopen (by simp) helement.1.2
          have hinside : ∀ handle ∈ b.stack.takeWhile (· != element),
              IsFree b.store root parts handle := fun handle hmem =>
            ⟨hb.stack.of_mem_takeWhile hopen helement.1.2 handle hmem,
              hb.shallow.not_mem_of_mem_takeWhile hb.stack hopen helement.1.2 handle hmem⟩
          split
          · exact hb.endOther htag
          · split
            next => exact (hb.close hsublist houter).formatting_subset List.erase_subset
            next block hblock =>
              have hblock := List.mem_reverse.mp (List.mem_of_find?_eq_some hblock)
              refine ih (hb.splitAtBlock helement (hinside block hblock) ?_ ?_ houter
                (hb.shallow.of_sublist hsublist))
              · exact fun handle hmem =>
                  hinside handle ((List.takeWhile_sublist _).subset hmem)
              · exact fun handle hmem => hinside handle
                  (((List.drop_sublist _ _).trans (List.dropWhile_sublist _)).subset hmem)

theorem endFormatting {tag : String} (htag : tag ≠ "html") :
    (b.endFormatting tag).Careful root parts :=
  hb.endFormattingIn htag 8

end Careful

end Winnow.Html.Builder
