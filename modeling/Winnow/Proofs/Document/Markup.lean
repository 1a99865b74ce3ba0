import Winnow.Document.Markup

/-!
# Writing with a stack

The stack of work writes what the recursion over the tree writes: an element is on the stack as
its children and its end tag, and what is below it on the stack is written after it.
-/

namespace Winnow.Tree

open Markup

/-- The markup that a piece of work stands for. -/
def Work.text : Work → String
  | opening raw tree => render raw tree
  | closing text => text

theorem join_text_trees (raw : Bool) (trees : List Tree) :
    String.join ((Work.trees raw trees).map Work.text) = renderAll raw trees := by
  induction trees with
  | nil => rfl
  | cons tree rest ih =>
      rw [renderAll, ← ih]
      simp [Work.trees, Work.text, String.join_cons]

/-- A stack of work writes the markup of its pieces, the topmost first. -/
theorem join_write (stack : List Work) :
    String.join (write stack) = String.join (stack.map Work.text) := by
  induction stack using write.induct with
  | case1 => simp [write]
  | case2 text stack ih => simp [write, ih, String.join_cons, Work.text]
  | case3 raw label children stack hdocument ih =>
      rw [write, if_pos hdocument, ih, List.map_append, String.join_append, join_text_trees,
        List.map_cons, String.join_cons, Work.text, render, if_pos hdocument]
  | case4 raw label children stack hdocument htext ih =>
      rw [write, if_neg hdocument, if_pos htext, String.join_cons, ih, List.map_cons,
        String.join_cons, Work.text, render, if_neg hdocument, if_pos htext]
  | case5 raw label children stack hdocument htext hcomment ih =>
      rw [write, if_neg hdocument, if_neg htext, if_pos hcomment, String.join_cons, ih,
        List.map_cons, String.join_cons, Work.text, render, if_neg hdocument, if_neg htext,
        if_pos hcomment]
  | case6 raw label children stack hdocument htext hcomment hvoid ih =>
      rw [write, if_neg hdocument, if_neg htext, if_neg hcomment, if_pos hvoid, String.join_cons,
        ih, List.map_cons, String.join_cons, Work.text, render, if_neg hdocument, if_neg htext,
        if_neg hcomment, if_pos hvoid]
  | case7 raw label children stack hdocument htext hcomment hvoid ih =>
      rw [write, if_neg hdocument, if_neg htext, if_neg hcomment, if_neg hvoid, String.join_cons,
        ih, List.map_append, String.join_append, join_text_trees, List.map_cons, List.map_cons,
        String.join_cons, String.join_cons, Work.text, Work.text, render, if_neg hdocument,
        if_neg htext, if_neg hcomment, if_neg hvoid]
      simp only [String.append_assoc]

theorem htmlUnder_eq_render (raw : Bool) (tree : Tree) : tree.htmlUnder raw = render raw tree := by
  rw [htmlUnder, join_write]
  simp [Work.text, String.join_cons]

theorem renderAll_eq_join (raw : Bool) (trees : List Tree) :
    renderAll raw trees = String.join (trees.map (render raw)) := by
  rw [← join_text_trees, Work.trees, List.map_map]
  rfl

theorem innerHtml_eq_renderAll (tree : Tree) :
    tree.innerHtml = renderAll tree.label.isRawText tree.children := by
  rw [innerHtml, renderAll_eq_join]
  exact congrArg String.join (List.map_congr_left fun child _ => htmlUnder_eq_render _ child)

theorem html_eq_render (tree : Tree) : tree.html = render false tree := htmlUnder_eq_render _ _

end Winnow.Tree
