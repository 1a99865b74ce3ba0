import Winnow.Proofs.Store.Links

/-!
# Documents with given roots

Of the nodes directly below a document only its roots are elements, and only elements have
anything below them. Nodes may be moved about below elements without any change to that, so
it takes no more than a look at what is put directly below the document.
-/

namespace Winnow

theorem Label.isElement_congr {first second : Label} (htag : first.tag = second.tag) :
    first.isElement = second.isElement := by
  rw [isElement, isElement, htag]

theorem Label.isElement_ofComment (text : String) : (Label.ofComment text).isElement = false := by
  change (!("#comment".toList.head? == some '#')) = false
  decide

namespace Store

/-- A document whose elements directly below it are among its roots, each at most once. -/
structure Grounded (roots : List Handle) (store : Store) : Prop where
  document : (store.label 0).tag = "#document"
  root : ∀ root ∈ roots, (store.label root).tag = "html" ∧ (store.label root).space = .html
  listed : ∀ child ∈ store.children 0, child ≠ 0 ∧ child < store.cells.size
  top : ((store.children 0).filter fun child => (store.label child).isElement).Sublist roots
  host : ∀ handle, store.children handle ≠ [] → handle = 0 ∨ (store.label handle).isElement = true

variable {roots : List Handle} {store : Store}

theorem children_detach_sublist (store : Store) (handle other : Handle) :
    ((store.detach handle).children other).Sublist (store.children other) := by
  unfold detach
  split
  next parent _ =>
    rw [children_removeChild]
    split
    next heq => exact heq ▸ List.erase_sublist
    next => exact List.Sublist.refl _
  next => exact List.Sublist.refl _

namespace Grounded

variable (hgrounded : store.Grounded roots)
include hgrounded

theorem isElement_document : (store.label 0).isElement = false := by
  rw [Label.isElement, hgrounded.document]
  decide

theorem size_pos : 0 < store.cells.size := by
  by_contra hge
  have hdocument := hgrounded.document
  rw [label_of_size_le _ _ (Nat.le_of_not_lt hge)] at hdocument
  revert hdocument
  decide

theorem ne_zero {handle : Handle} (helement : (store.label handle).isElement = true) :
    handle ≠ 0 := by
  rintro rfl
  rw [hgrounded.isElement_document] at helement
  cases helement

theorem isElement_root {root : Handle} (hroot : root ∈ roots) :
    (store.label root).isElement = true := by
  rw [Label.isElement, (hgrounded.root root hroot).1]
  decide

/-- Elements that are no roots are not directly below the document. -/
theorem not_mem_children {handle : Handle} (helement : (store.label handle).isElement = true)
    (hnot : handle ∉ roots) : handle ∉ store.children 0 := by
  intro hmem
  exact hnot (hgrounded.top.subset (List.mem_filter.mpr ⟨hmem, helement⟩))

/-- Nodes may be moved about below elements. -/
theorem of_sublist {after : Store}
    (htag : ∀ handle, (after.label handle).tag = (store.label handle).tag)
    (hspace : ∀ handle, (after.label handle).space = (store.label handle).space)
    (hsize : store.cells.size ≤ after.cells.size)
    (htop : (after.children 0).Sublist (store.children 0))
    (hhost : ∀ handle, after.children handle ≠ [] →
      store.children handle ≠ [] ∨ (store.label handle).isElement = true) :
    after.Grounded roots where
  document := (htag 0).trans hgrounded.document
  root handle hroot := by
    rw [htag, hspace]
    exact hgrounded.root handle hroot
  listed child hchild :=
    (hgrounded.listed child (htop.subset hchild)).imp_right fun hlt => Nat.lt_of_lt_of_le hlt hsize
  top := by
    simp only [fun handle => Label.isElement_congr (htag handle)]
    exact (htop.filter _).trans hgrounded.top
  host handle hne := by
    rw [Label.isElement_congr (htag handle)]
    rcases hhost handle hne with hold | helement
    · exact hgrounded.host handle hold
    · exact Or.inr helement

theorem removeChild (parent child : Handle) : (store.removeChild parent child).Grounded roots := by
  have hsublist : ∀ other, ((store.removeChild parent child).children other).Sublist
      (store.children other) := by
    intro other
    rw [children_removeChild]
    split
    next heq => exact heq ▸ List.erase_sublist
    next => exact List.Sublist.refl _
  refine hgrounded.of_sublist (by simp) (by simp) (by simp) (hsublist 0) fun handle hne =>
    Or.inl fun hnil => hne ?_
  exact List.sublist_nil.mp (hnil ▸ hsublist handle)

theorem detach (handle : Handle) : (store.detach handle).Grounded roots := by
  unfold Store.detach
  split
  · exact hgrounded.removeChild _ _
  · exact hgrounded

theorem setAttributes (handle : Handle) (attributes : Attributes) :
    (store.setAttributes handle attributes).Grounded roots := by
  refine hgrounded.of_sublist (fun other => tag_setAttributes ..)
    (fun other => space_setAttributes ..) (by simp) ?_ fun other hne => Or.inl ?_
  · rw [children_setAttributes]
  · rwa [children_setAttributes] at hne

/-- New children of an element leave the top of the document as it is. -/
theorem of_setChildren {parent : Handle} (helement : (store.label parent).isElement = true)
    (below : List Handle) : (store.setChildren parent below).Grounded roots := by
  have hother : ∀ other, other ≠ parent →
      (store.setChildren parent below).children other = store.children other := by
    intro other hne
    rw [children_setChildren, if_neg fun hboth => hne hboth.1]
  refine hgrounded.of_sublist (by simp) (by simp) (by simp) ?_ fun handle hne => ?_
  · rw [hother 0 (hgrounded.ne_zero helement).symm]
  · by_cases heq : handle = parent
    · exact Or.inr (heq ▸ helement)
    · rw [hother handle heq] at hne
      exact Or.inl hne

theorem setParent (handle : Handle) (parent : Option Handle) :
    (store.setParent handle parent).Grounded roots :=
  hgrounded.of_sublist (by simp) (by simp) (by simp) (by simp) (by simp +contextual)

theorem append {parent : Handle} (helement : (store.label parent).isElement = true)
    (child : Handle) : (store.append parent child).Grounded roots := by
  have hdetached := (hgrounded.detach child).setParent child (some parent)
  exact hdetached.of_setChildren (by simpa using helement) _

theorem insertBefore {reference : Handle}
    (helement : (store.label reference).isElement = true) (hnot : reference ∉ roots)
    (parent item : Handle) : (store.insertBefore parent item reference).1.Grounded roots := by
  unfold Store.insertBefore
  dsimp only
  split
  next hcontains =>
    have hmem := List.contains_iff_mem.mp hcontains
    have hhost : (store.label parent).isElement = true := by
      refine (hgrounded.host parent (List.ne_nil_of_mem hmem)).resolve_left ?_
      rintro rfl
      exact hgrounded.not_mem_children helement hnot hmem
    have hdetached := hgrounded.detach item
    split
    · exact (hdetached.setParent item (some parent)).of_setChildren (by simpa using hhost) _
    · exact hdetached
  next => exact hgrounded

/-- A node that is added is nowhere in the document yet. -/
theorem add (label : Label) : (store.add label).1.Grounded roots := by
  have hold : ∀ handle, handle < store.cells.size →
      (store.add label).1.label handle = store.label handle := by
    intro handle hlt
    rw [label_add, if_neg (Nat.ne_of_lt hlt)]
  constructor
  case document => rw [hold 0 hgrounded.size_pos, hgrounded.document]
  case root =>
    intro root hroot
    rw [hold root (lt_size_of_isElement (hgrounded.isElement_root hroot))]
    exact hgrounded.root root hroot
  case listed =>
    intro child hchild
    rw [children_add] at hchild
    rw [size_add]
    exact (hgrounded.listed child hchild).imp_right Nat.lt_succ_of_lt
  case top =>
    rw [children_add, List.filter_congr fun child hchild =>
      congrArg Label.isElement (hold child (hgrounded.listed child hchild).2)]
    exact hgrounded.top
  case host =>
    intro handle hne
    rw [children_add] at hne
    obtain ⟨child, hchild⟩ := List.exists_mem_of_ne_nil _ hne
    rw [hold handle (lt_size_of_mem_children hchild)]
    exact hgrounded.host handle hne

/-! ## Directly below the document -/

theorem children_append_document (child : Handle) : ∃ front, front.Sublist (store.children 0) ∧
    (store.append 0 child).children 0 = front ++ [child] ∧
      ∀ other, other ≠ 0 → (store.append 0 child).children other ≠ [] →
        store.children other ≠ [] := by
  have hsublist : ∀ other,
      (((store.detach child).setParent child (some 0)).children other).Sublist
        (store.children other) := by
    intro other
    rw [children_setParent]
    exact children_detach_sublist store child other
  refine ⟨_, hsublist 0, ?_, fun other hother hne hnil => hne ?_⟩
  · unfold Store.append
    rw [children_setChildren, if_pos ⟨rfl, by simpa using hgrounded.size_pos⟩]
  · unfold Store.append
    rw [children_setChildren, if_neg fun hboth => hother hboth.1]
    exact List.sublist_nil.mp (hnil ▸ hsublist other)

/-- Directly below the document anything may be put that is no element. -/
theorem append_document {child : Handle} (hlt : child ≠ 0 ∧ child < store.cells.size)
    (hother : (store.label child).isElement = false) : (store.append 0 child).Grounded roots := by
  obtain ⟨front, hfront, htop, hbelow⟩ := hgrounded.children_append_document child
  constructor
  case document => rw [label_append, hgrounded.document]
  case root =>
    intro root hroot
    rw [label_append]
    exact hgrounded.root root hroot
  case listed =>
    intro other hmem
    rw [htop] at hmem
    rw [size_append]
    rcases List.mem_append.mp hmem with hold | hnew
    · exact hgrounded.listed other (hfront.subset hold)
    · exact List.mem_singleton.mp hnew ▸ hlt
  case top =>
    simp only [htop, label_append, List.filter_append, List.filter_cons, hother, List.filter_nil,
      Bool.false_eq_true, if_false, List.append_nil]
    exact (hfront.filter _).trans hgrounded.top
  case host =>
    intro handle hne
    rw [label_append]
    by_cases hzero : handle = 0
    · exact Or.inl hzero
    · exact hgrounded.host handle (hbelow handle hzero hne)

/-- A comment may be added directly below the document. -/
theorem append_comment (text : String) :
    ((store.add (.ofComment text)).1.append 0 store.cells.size).Grounded roots := by
  refine (hgrounded.add (.ofComment text)).append_document
    ⟨Nat.ne_of_gt hgrounded.size_pos, ?_⟩ ?_
  · rw [size_add]
    exact Nat.lt_succ_self _
  · rw [label_add, if_pos rfl, Label.isElement_ofComment]

/-- A document without a root gets one. -/
theorem append_root {root : Handle} (hnone : roots = []) (htag : (store.label root).tag = "html")
    (hspace : (store.label root).space = .html) : (store.append 0 root).Grounded [root] := by
  subst hnone
  obtain ⟨front, hfront, htop, hbelow⟩ := hgrounded.children_append_document root
  have helement : (store.label root).isElement = true := by
    rw [Label.isElement, htag]
    decide
  constructor
  case document => rw [label_append, hgrounded.document]
  case root =>
    intro other hmem
    rw [label_append, List.mem_singleton.mp hmem]
    exact ⟨htag, hspace⟩
  case listed =>
    intro other hmem
    rw [htop] at hmem
    rw [size_append]
    rcases List.mem_append.mp hmem with hold | hnew
    · exact hgrounded.listed other (hfront.subset hold)
    · cases List.mem_singleton.mp hnew
      exact ⟨hgrounded.ne_zero helement, lt_size_of_isElement helement⟩
  case top =>
    have hold := List.sublist_nil.mp ((hfront.filter _).trans hgrounded.top)
    simp only [htop, label_append, List.filter_append, hold, List.nil_append]
    exact List.filter_sublist
  case host =>
    intro handle hne
    rw [label_append]
    by_cases hzero : handle = 0
    · exact Or.inl hzero
    · exact hgrounded.host handle (hbelow handle hzero hne)

/-! ## The tree of the document -/

omit hgrounded in
theorem label_treeAt (store : Store) (depth : Nat) (handle : Handle) :
    (store.treeAt depth handle).label = store.label handle := by
  cases depth with
  | zero => rfl
  | succ depth => rfl

/-- Directly below the document the trees without elements at the top have none at all. -/
theorem elements_treeAt {child : Handle} (hmem : child ∈ store.children 0)
    (hother : (store.label child).isElement = false) (depth : Nat) :
    (store.treeAt depth child).elements = [] := by
  have hchildren : store.children child = [] := by
    by_contra hne
    rcases hgrounded.host child hne with hzero | helement
    · exact (hgrounded.listed child hmem).1 hzero
    · rw [hother] at helement
      cases helement
  have hleaf : store.treeAt depth child = .node (store.label child) [] := by
    cases depth with
    | zero => rfl
    | succ depth =>
        rw [treeAt, hchildren]
        rfl
  rw [hleaf, Tree.elements, Tree.preorder, Tree.preorderAll]
  simp [Tree.label, hother]

theorem tag_toTree : (store.toTree 0).label.tag = "#document" := by
  rw [toTree, label_treeAt, hgrounded.document]

/-- All elements are below the elements directly below the document. -/
theorem elements_forest (depth : Nat) {handles : List Handle}
    (hsubset : handles ⊆ store.children 0) :
    (Tree.preorderAll (handles.map (store.treeAt depth))).filter (·.label.isElement) =
      (handles.filter fun child => (store.label child).isElement).flatMap
        fun child => (store.treeAt depth child).elements := by
  induction handles with
  | nil => rfl
  | cons child rest ih =>
      have hrest := ih fun other hmem => hsubset (List.mem_cons_of_mem _ hmem)
      rw [List.map_cons, Tree.preorderAll, List.filter_append, hrest]
      change (store.treeAt depth child).elements ++ _ = _
      cases helement : (store.label child).isElement with
      | true => rw [List.filter_cons, helement, if_pos rfl, List.flatMap_cons]
      | false =>
          rw [hgrounded.elements_treeAt (hsubset List.mem_cons_self) helement,
            List.filter_cons, helement, if_neg Bool.false_ne_true, List.nil_append]

/-- With one root at most all elements are the root and what is below it. -/
theorem elements_toTree (hlength : roots.length ≤ 1) : (store.toTree 0).elements =
    ((store.toTree 0).rootElement?.map Tree.elements).getD [] := by
  obtain ⟨depth, hdepth⟩ := Nat.exists_eq_succ_of_ne_zero (Nat.ne_of_gt hgrounded.size_pos)
  have htree : store.toTree 0 =
      .node (store.label 0) ((store.children 0).map (store.treeAt depth)) := by
    rw [toTree, hdepth, treeAt]
  have helements : (store.toTree 0).elements =
      ((store.children 0).filter fun child => (store.label child).isElement).flatMap
        fun child => (store.treeAt depth child).elements := by
    rw [htree, Tree.elements, Tree.preorder, List.filter_cons_of_neg, hgrounded.elements_forest]
    · exact List.Subset.refl _
    · simp [Tree.label, hgrounded.isElement_document]
  have hroot : (store.toTree 0).rootElement? =
      ((store.children 0).filter fun child => (store.label child).isElement).head?.map
        (store.treeAt depth) := by
    rw [htree, Tree.rootElement?, Tree.children, List.find?_map, List.head?_filter]
    simp only [Function.comp_def, label_treeAt]
  have htop := Nat.le_trans hgrounded.top.length_le hlength
  rw [helements, hroot]
  generalize (store.children 0).filter (fun child => (store.label child).isElement) = top at htop ⊢
  match top, htop with
  | [], _ => rfl
  | [root], _ => simp

end Grounded

theorem isElement_add {store : Store} {handle : Handle}
    (helement : (store.label handle).isElement = true) (label : Label) :
    ((store.add label).1.label handle).isElement = true := by
  rw [label_add, if_neg (Nat.ne_of_lt (lt_size_of_isElement helement))]
  exact helement

end Store

end Winnow
