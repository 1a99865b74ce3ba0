import Winnow.Proofs.Document.Markup
import Winnow.Proofs.Store.FromTree

/-!
# The markup of nodes

A node is written with a stack of work, over the tree below it. In a forest that comes to the same
as a recursion over the links: the markup of a node is put together from that of its children, and
text looks up at its parent. Since the links lead down to an end, there is just one way to write
all nodes by these rules.
-/

namespace Winnow

open Markup

theorem Label.isRawText_of_isDocument {label : Label} (htag : label.tag = "#document") :
    label.isRawText = false := by
  rw [isRawText, htag, Bool.and_eq_false_iff]
  exact .inr (by decide)

theorem Label.tag_ne_of_isElement {label : Label} (helement : label.isElement = true) :
    label.tag ≠ "#document" ∧ label.tag ≠ "#text" ∧ label.tag ≠ "#comment" := by
  refine ⟨?_, ?_, ?_⟩
  all_goals
    intro htag
    rw [isElement, htag] at helement
    revert helement
    decide

namespace Store

variable {store : Store}

/-- How a node is written by recursion, given how its children are. -/
def markup (store : Store) (write : Handle → String) (handle : Handle) : String :=
  let label := store.label handle
  let content := String.join ((store.children handle).map write)
  if label.tag = "#document" then content
  else if label.tag = "#text" then
    if store.isUnderRaw handle then label.text else escapeText label.text
  else if label.tag = "#comment" then "<!--" ++ label.text ++ "-->"
  else if label.isVoid then startTag label.tag label.attributes
  else startTag label.tag label.attributes ++ content ++ endTag label.tag

/-- Only the markup of the children matters. -/
theorem markup_congr {write other : Handle → String} {handle : Handle}
    (hsame : ∀ child ∈ store.children handle, write child = other child) :
    store.markup write handle = store.markup other handle := by
  unfold markup
  rw [List.map_congr_left hsame]

theorem html_eq_render (store : Store) (handle : Handle) :
    store.html handle = (store.toTree handle).render (store.isUnderRaw handle) :=
  Tree.htmlUnder_eq_render _ _

/-- A child is written as its parent asks for. -/
theorem Linked.isUnderRaw_of_mem (hlinked : store.Linked) {handle child : Handle}
    (hchild : child ∈ store.children handle) :
    store.isUnderRaw child = (store.label handle).isRawText := by
  rw [isUnderRaw, hlinked.parent_of_mem hchild]

namespace IsForest

variable (hforest : store.IsForest)
include hforest

/-- The trees below a node are written as its children are. -/
theorem renderAll_children (handle : Handle) :
    Tree.renderAll (store.label handle).isRawText ((store.children handle).map store.toTree) =
      String.join ((store.children handle).map store.html) := by
  rw [Tree.renderAll_eq_join, List.map_map]
  refine congrArg String.join (List.map_congr_left fun child hchild => ?_)
  rw [html_eq_render, hforest.linked.isUnderRaw_of_mem hchild]
  rfl

theorem innerHtml_eq (handle : Handle) :
    store.innerHtml handle = String.join ((store.children handle).map store.html) := by
  rw [innerHtml, Tree.innerHtml, hforest.toTree_node, Tree.children, Tree.label,
    ← hforest.renderAll_children, Tree.renderAll_eq_join]
  exact congrArg String.join (List.map_congr_left fun tree _ => Tree.htmlUnder_eq_render _ tree)

/-- The writer with a stack follows the rules of the recursion. -/
theorem html_eq_markup (handle : Handle) : store.html handle = store.markup store.html handle := by
  rw [html_eq_render, hforest.toTree_node, Tree.render, hforest.renderAll_children]
  unfold markup
  dsimp only
  by_cases hdocument : (store.label handle).tag = "#document"
  · rw [if_pos hdocument, if_pos hdocument, ← hforest.renderAll_children,
      Label.isRawText_of_isDocument hdocument]
  · rw [if_neg hdocument, if_neg hdocument]

/-- Nothing else follows them. -/
theorem eq_html_of_markup {write : Handle → String}
    (hwrite : ∀ handle, write handle = store.markup write handle) (handle : Handle) :
    write handle = store.html handle := by
  -- There is no size to go by, since `write` is any function. The links lead down to an end, and
  -- the rules ask only for what the children are written as.
  induction handle using hforest.below_induction with
  | step handle ih => rw [hwrite, markup_congr ih, ← hforest.html_eq_markup]

/-- In a forest the writer with a stack writes what the recursion over the nodes does, which is
the only function that follows its rules. So an element that has an end tag is written as its
start tag, what is inside it and its end tag, and a document as what is inside it. -/
theorem html_follows_recursion :
    (∀ write : Handle → String,
      (∀ handle, write handle = store.markup write handle) ↔ write = store.html) ∧
    (∀ handle, store.innerHtml handle = String.join ((store.children handle).map store.html)) ∧
    (∀ handle, (store.label handle).isElement = true → (store.label handle).isVoid = false →
      store.html handle = startTag (store.label handle).tag (store.label handle).attributes ++
        store.innerHtml handle ++ endTag (store.label handle).tag) ∧
    ∀ handle, (store.label handle).tag = "#document" →
      store.html handle = store.innerHtml handle := by
  refine ⟨fun write => ⟨fun hwrite => funext (hforest.eq_html_of_markup hwrite), ?_⟩,
    hforest.innerHtml_eq, fun handle helement hvoid => ?_, fun handle hdocument => ?_⟩
  · rintro rfl
    exact hforest.html_eq_markup
  · obtain ⟨hdocument, htext, hcomment⟩ := Label.tag_ne_of_isElement helement
    rw [hforest.html_eq_markup, markup, if_neg hdocument, if_neg htext, if_neg hcomment,
      if_neg (by simp [hvoid]), hforest.innerHtml_eq]
  · rw [hforest.html_eq_markup, markup, if_pos hdocument, hforest.innerHtml_eq]

end IsForest

/-- The same text in a style element and in a paragraph, where a line break and a comment follow. -/
def styledPage : Tree :=
  .node .document [.node { tag := "style" } [.ofText "a<b"],
    .node { tag := "p" } [.ofText "a<b", .node { tag := "br" } [], .node (.ofComment "c") []]]

theorem html_follows_recursion_page :
    (ofTree styledPage).html 2 = "a<b" ∧ (ofTree styledPage).html 4 = "a&lt;b" ∧
      (ofTree styledPage).html 3 = "<p>" ++ (ofTree styledPage).innerHtml 3 ++ "</p>" ∧
      (ofTree styledPage).innerHtml 3 = "a&lt;b<br><!--c-->" ∧
      (ofTree styledPage).html 0 = (ofTree styledPage).innerHtml 0 ∧
      (ofTree styledPage).innerHtml 0 = "<style>a<b</style><p>a&lt;b<br><!--c--></p>" := by
  obtain ⟨hrules, hinner, helement, hdocument⟩ :=
    (isForest_ofTree styledPage).html_follows_recursion
  have hrule := (hrules _).mpr rfl
  refine ⟨?_, ?_, helement 3 (by decide) (by decide), ?_, hdocument 0 (by decide), ?_⟩
  · rw [hrule 2]
    decide +kernel
  · rw [hrule 4]
    decide +kernel
  · rw [hinner 3]
    decide +kernel
  · rw [hinner 0]
    decide +kernel

end Store

end Winnow
