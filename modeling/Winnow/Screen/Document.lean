import Winnow.Document.Markup
import Winnow.Screen.Filter
import Winnow.Screen.Fragment
import Winnow.Screen.Writer

/-!
# Screened documents

A document is written with everything inside its root element passed through a
screen: the contents of head and body as fragments, and what else stands there
as fragments of their own. The tags of root, head and body are written as they
are.
-/

namespace Winnow

namespace Screen

/-- A fragment with only what passes. -/
def clean (screen : Screen) (fragment : String) : Except Fault String :=
  if fragment.isEmpty then .ok ""
  else do
    let trees ← parseFragment screen.tags fragment.toList
    let pieces ← passAll screen (Piece.ofTrees (Tree.joinText (Tree.normalizeAll trees)))
    let kept := (joinTexts pieces).map (Piece.qualify usualPrefixes)
    return String.ofList (← writePieces kept)

/-- Is this the head or the body of a document? -/
def isPart (label : Label) : Bool :=
  (label.tag == "head" || label.tag == "body") && decide (label.space = .html)

/-- What is written of a child of a root element with raw text or without. -/
def cleanChild (screen : Screen) (raw : Bool) (tree : Tree) : Except Fault String :=
  if isPart tree.label then do
    return Markup.startTag tree.label.tag tree.label.attributes ++
      (← screen.clean tree.innerHtml) ++ Markup.endTag tree.label.tag
  else screen.clean (tree.htmlUnder raw)

/-- What is written of the children of a root element with raw text or without. -/
def cleanChildren (screen : Screen) (raw : Bool) : List Tree → Except Fault String
  | [] => .ok ""
  | tree :: rest => do
    return (← screen.cleanChild raw tree) ++ (← screen.cleanChildren raw rest)

/-- What is written of a document. Nothing is written of one without a root element. -/
def cleanDocument (screen : Screen) (document : Tree) : Except Fault String :=
  match document.rootElement? with
  | none => .ok ""
  | some root => do
    return Markup.startTag root.label.tag root.label.attributes ++
      (← screen.cleanChildren root.label.isRawText root.children) ++ Markup.endTag root.label.tag

end Screen

end Winnow
