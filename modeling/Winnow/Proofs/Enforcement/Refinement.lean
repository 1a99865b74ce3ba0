import Winnow.Proofs.Enforcement.Simulation
import Winnow.Proofs.Store.FromTree

/-!
# A pass over a document is a plain recursion

The pass lists the elements beforehand, edits the tree while it goes through the
list, asks of each element whether it is still connected, and stops counting
once everything is used up. What it leaves and what it reports is that of the
recursion over the tree in document order, which does none of this. Loose
documents are the one thing the recursion has to know of.
-/

namespace Winnow.Store

variable {store : Store} {root : Handle}

/-- What a pass leaves below a node, and the budgets that it has used. -/
def outcome (root : Handle) (reached : Store × Tally) : List Tree × Usage :=
  ([reached.1.toTree root], reached.2.usage)

/-- A pass over a document is the recursion that counts loose documents. -/
theorem IsForest.enforce_eq_trimLoose (hforest : store.IsForest)
    (htop : store.parent root = none) (hdocument : (store.label root).tag = "#document")
    (policy : Policy) :
    (store.enforce policy root).map (outcome root) =
      (store.toTree root).trimLoose policy {} := by
  have hagree := hforest.agree_enforce htop hdocument policy
  generalize hpass : store.enforce policy root = pass at hagree
  generalize hplain : (store.toTree root).trimLoose policy {} = plain at hagree
  cases hagree with
  | fault fault => rfl
  | done hsound hrelated =>
      obtain ⟨parts, results, henforced, rfl⟩ := hrelated
      have hafter := henforced.reworked.placed
      have hlt := henforced.lt_size.trans_le henforced.reworked.confined.size_le
      have hchildren := hafter.children
      rw [List.nil_append, List.append_nil] at hchildren
      change Except.ok (outcome root _) = _
      rw [outcome, hafter.isForest.toTree_eq hchildren hafter.holds hlt]

/-- A pass over a document leaves the tree and reports the budgets of the recursion that counts
loose documents, and those of the plain recursion where no loose document holds an element. -/
theorem enforce_refines_trim (hforest : store.IsForest) (htop : store.parent root = none)
    (hdocument : (store.label root).tag = "#document") (policy : Policy) :
    (store.enforce policy root).map (outcome root) = (store.toTree root).trimLoose policy {} ∧
      ((store.toTree root).SheetsHoldNoElement →
        (store.enforce policy root).map (outcome root) = (store.toTree root).trim policy {}) := by
  have hloose := hforest.enforce_eq_trimLoose htop hdocument policy
  refine ⟨hloose, fun hsheets => ?_⟩
  rw [hloose]
  exact Tree.trimLoose_eq_trim policy {} hsheets

/-! ## Documents with a style element -/

/-- Rules that admit one style element, which may set colors, and one paragraph. -/
def sheetPolicy : Policy := Policy.ofLines ["style", "p", "style|a|color"] {}

/-- A document whose style element holds some content behind its text. -/
def sheetDocument (content : List Tree) : Tree :=
  .node .document [.node { tag := "html" }
    [.node { tag := "style" } (.ofText "a\x7bcolor:red\x7d" :: content), .node { tag := "p" } []]]

theorem tag_sheetDocument (content : List Tree) :
    ((ofTree (sheetDocument content)).label 0).tag = "#document" := by
  rw [label_ofTree]
  rfl

/-- A paragraph in the style element does not count. -/
theorem enforce_refines_trim_paragraph :
    ((ofTree (sheetDocument [.node { tag := "p" } []])).enforce sheetPolicy 0).map (outcome 0) =
      (sheetDocument [.node { tag := "p" } []]).trim sheetPolicy {} := by
  have hplain := (enforce_refines_trim (isForest_ofTree (sheetDocument [.node { tag := "p" } []]))
    (parent_ofTree _) (tag_sheetDocument _) sheetPolicy).2
  rw [toTree_ofTree] at hplain
  exact hplain (by decide)

/-- A paragraph below a document in the style element uses up the budget of the other one. -/
theorem enforce_ne_trim_loose_document :
    ((ofTree (sheetDocument [.node .document [.node { tag := "p" } []]])).enforce
        sheetPolicy 0).map (outcome 0) ≠
      (sheetDocument [.node .document [.node { tag := "p" } []]]).trim sheetPolicy {} := by
  intro heq
  have hsizes := congrArg (fun result => result.toOption.map fun reached =>
    Tree.sizeAll reached.1) heq
  exact absurd hsizes (by decide +kernel)

end Winnow.Store

namespace Winnow.Tree

/-- A pass over a document is the recursion over its tree. -/
theorem trimLoose_of_enforce {policy : Policy} {document left : Tree} {tally : Tally}
    (hdocument : document.label.tag = "#document")
    (hok : document.enforce policy = .ok (left, tally)) :
    trimLoose policy {} document = .ok ([left], tally.usage) := by
  obtain ⟨⟨store, used⟩, hstore, hresult⟩ := Fault.exists_of_bind_eq_ok hok
  cases hresult
  have htag : ((Store.ofTree document).label 0).tag = "#document" := by
    rw [Store.label_ofTree, hdocument]
  have htrim := (Store.isForest_ofTree document).enforce_eq_trimLoose
    (Store.parent_ofTree document) htag policy
  rw [hstore, Store.toTree_ofTree] at htrim
  exact htrim.symm

end Winnow.Tree
