import Winnow.Proofs.Document.Markup
import Winnow.Proofs.Store.Held

/-!
# Whole documents

A whole document has one element directly below it, its root, and in the root the parts that every
document has. It is written with the tags of the root around those of the parts.
-/

namespace Winnow

/-- A document with one element directly below it, an HTML element in which a head stands and
after it a body, unless frame sets may stand in place of it. -/
structure Tree.Whole (frames : Bool) (document : Tree) where
  root : Tree
  parts : List Tree
  single : document.children.filter (·.label.isElement) = [root]
  sublist : parts.Sublist root.children
  tag_root : root.label.tag = "html"
  tag_parts : parts.map (·.label.tag) = partNames frames
  space : ∀ tree ∈ root :: parts, tree.label.space = .html

namespace Store

/-! ## From nodes to trees -/

variable {store : Store} {root : Handle} {parts : List Handle}

theorem Hosts.root_mem (hhosts : store.Hosts root parts) : root ∈ store.children 0 := by
  have hheld := hhosts.children 0
  rw [if_pos rfl] at hheld
  have hmem : root ∈ (store.children 0).filter fun child => (root :: parts).contains child := by
    rw [hheld]
    exact List.mem_cons_self
  exact (List.mem_filter.mp hmem).1

theorem Hosts.parts_sublist (hhosts : store.Hosts root parts) (hroot : root ≠ 0) :
    parts.Sublist (store.children root) := by
  have hheld := hhosts.children root
  rw [if_neg hroot, if_pos rfl] at hheld
  rw [← hheld]
  exact List.filter_sublist

/-- The document with a root and with parts in it is whole. -/
theorem Grounded.whole_toTree (hgrounded : store.Grounded [root]) (hhosts : store.Hosts root parts)
    {frames : Bool} (hcount : parts.length = (partNames frames).length) :
    Nonempty ((store.toTree 0).Whole frames) := by
  have hnames : parts.map (fun part => (store.label part).tag) = partNames frames := by
    have hnamed := List.prefix_iff_eq_take.mp hhosts.named
    rw [List.length_map, hcount] at hnamed
    rw [hnamed]
    cases frames with
    | true => rfl
    | false => rfl
  have helement : (store.label root).isElement = true :=
    hgrounded.isElement_root List.mem_cons_self
  have hroot : root ≠ 0 := hgrounded.ne_zero helement
  have hsize : 2 ≤ store.cells.size :=
    Nat.lt_of_le_of_lt (Nat.pos_of_ne_zero hroot) (lt_size_of_isElement helement)
  -- The document and its root are two nodes, which is room for two levels.
  obtain ⟨depth, hdepth⟩ := Nat.exists_eq_add_of_le' hsize
  have htree : store.toTree 0 =
      .node (store.label 0) ((store.children 0).map (store.treeAt (depth + 1))) := by
    rw [toTree, hdepth, treeAt]
  refine ⟨{
    root := store.treeAt (depth + 1) root
    parts := parts.map (store.treeAt depth)
    single := ?_
    sublist := (hhosts.parts_sublist hroot).map _
    tag_root := ?_
    tag_parts := ?_
    space := ?_ }⟩
  · have htop :
        (store.children 0).filter (fun child => (store.label child).isElement) = [root] := by
      refine (List.sublist_singleton.mp hgrounded.top).resolve_left fun hnone => ?_
      have hmem : root ∈ (store.children 0).filter fun child => (store.label child).isElement :=
        List.mem_filter.mpr ⟨hhosts.root_mem, helement⟩
      rw [hnone] at hmem
      cases hmem
    rw [htree, Tree.children, List.filter_map]
    simp only [Function.comp_def, Grounded.label_treeAt, htop, List.map_singleton]
  · rw [Grounded.label_treeAt]
    exact (hgrounded.root root List.mem_cons_self).1
  · rw [List.map_map, ← hnames]
    exact List.map_congr_left fun part _ => congrArg Label.tag (Grounded.label_treeAt ..)
  · intro tree hmem
    rcases List.mem_cons.mp hmem with rfl | hmem
    · rw [Grounded.label_treeAt]
      exact (hgrounded.root root List.mem_cons_self).2
    · obtain ⟨part, hpart, rfl⟩ := List.mem_map.mp hmem
      rw [Grounded.label_treeAt]
      exact hhosts.space part hpart

end Store

namespace Markup

/-- Are these elements written in this order with both their tags, with something in them and
around them? -/
inductive Lists : List Tree → String → Prop
  | nil (rest : String) : Lists [] rest
  | cons {tree : Tree} {trees : List Tree} {rest : String} (front inside : String)
      (hrest : Lists trees rest) :
      Lists (tree :: trees) (front ++ startTag tree.label.tag tree.label.attributes ++ inside ++
        endTag tree.label.tag ++ rest)

theorem Lists.prepend {trees : List Tree} {output : String} (hlists : Lists trees output)
    (front : String) : Lists trees (front ++ output) := by
  cases hlists with
  | nil => exact .nil _
  | @cons tree trees rest before inside hrest =>
      have hlisted := @Lists.cons tree trees rest (front ++ before) inside hrest
      simpa only [String.append_assoc] using hlisted

end Markup

namespace Tree

open Markup

/-! ## Written documents -/

variable {frames : Bool} {document : Tree}

theorem renderAll_append (raw : Bool) (front back : List Tree) :
    renderAll raw (front ++ back) = renderAll raw front ++ renderAll raw back := by
  induction front with
  | nil => rw [List.nil_append, renderAll, String.empty_append]
  | cons tree rest ih => rw [List.cons_append, renderAll, renderAll, ih, String.append_assoc]

/-- A root, a head or a body is written with both its tags. -/
theorem render_frame {tree : Tree} (htag : tree.label.tag ∈ ["html", "head", "body"])
    (hspace : tree.label.space = .html) (raw : Bool) :
    tree.render raw = startTag tree.label.tag tree.label.attributes ++
      renderAll false tree.children ++ endTag tree.label.tag := by
  obtain ⟨label, children⟩ := tree
  have hknown : ∀ name ∈ ["html", "head", "body"], name ≠ "#document" ∧ name ≠ "#text" ∧
      name ≠ "#comment" ∧ voidElements.contains name = false ∧
      rawTextElements.contains name = false := by decide
  obtain ⟨hdocument, htext, hcomment, hvoid, hraw⟩ := hknown label.tag htag
  have hvoid : label.isVoid = false := by rw [Label.isVoid, hvoid, Bool.and_false]
  have hraw : label.isRawText = false := by rw [Label.isRawText, hraw, Bool.and_false]
  rw [render, if_neg hdocument, if_neg htext, if_neg hcomment, hvoid, if_neg Bool.false_ne_true,
    hraw]
  rfl

theorem lists_renderAll {parts children : List Tree} (hsublist : parts.Sublist children)
    (hparts : ∀ tree ∈ parts, tree.label.tag ∈ ["head", "body"] ∧ tree.label.space = .html)
    (raw : Bool) : Lists parts (renderAll raw children) := by
  induction hsublist with
  | slnil => exact .nil _
  | cons tree hsublist ih =>
      rw [renderAll]
      exact (ih hparts).prepend _
  | @cons_cons parts children tree hsublist ih =>
      obtain ⟨htag, hspace⟩ := hparts tree List.mem_cons_self
      have hrest := ih fun other hmem => hparts other (List.mem_cons_of_mem _ hmem)
      have hlists := @Lists.cons tree parts _ "" (renderAll false tree.children) hrest
      rw [String.empty_append] at hlists
      rwa [renderAll, render_frame (List.mem_cons_of_mem _ htag) hspace]

namespace Whole

variable (whole : document.Whole frames)

/-- Is this the markup of a whole document, with the tags of its root and of its parts, and with
some trees before and after the root? -/
def Writes (before after : List Tree) (output : String) : Prop :=
  ∃ inside, Lists whole.parts inside ∧
    output = renderAll false before ++ startTag "html" whole.root.label.attributes ++ inside ++
      endTag "html" ++ renderAll false after

include whole

theorem root_mem : whole.root ∈ document.children.filter (·.label.isElement) := by
  rw [whole.single]
  exact List.mem_cons_self

theorem isHtml_parts : ∀ tree ∈ whole.parts,
    tree.label.tag ∈ ["head", "body"] ∧ tree.label.space = .html := by
  intro tree hmem
  refine ⟨partNames_subset frames ?_, whole.space tree (List.mem_cons_of_mem _ hmem)⟩
  rw [← whole.tag_parts]
  exact List.mem_map_of_mem hmem

/-- A whole document is written with all that stands beside its root. -/
theorem writes_html (hdocument : document.label.tag = "#document") :
    ∃ before after, document.children = before ++ whole.root :: after ∧
      whole.Writes before after document.html := by
  obtain ⟨before, after, hchildren⟩ := List.append_of_mem (List.mem_filter.mp whole.root_mem).1
  have htag : whole.root.label.tag ∈ ["html", "head", "body"] := by
    rw [whole.tag_root]
    exact List.mem_cons_self
  have hroot := render_frame htag (whole.space _ List.mem_cons_self) false
  have hwritten : document.html = renderAll false document.children := by
    obtain ⟨label, children⟩ := document
    rw [html_eq_render, render]
    exact if_pos hdocument
  refine ⟨before, after, hchildren, _, lists_renderAll whole.sublist whole.isHtml_parts false, ?_⟩
  rw [hwritten, hchildren, renderAll_append, renderAll, hroot, whole.tag_root]
  simp only [String.append_assoc]

end Whole

end Tree

end Winnow
