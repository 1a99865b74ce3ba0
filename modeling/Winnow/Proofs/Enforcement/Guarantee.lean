import Winnow.Proofs.Attributes
import Winnow.Proofs.Enforcement.Counting
import Winnow.Proofs.Enforcement.Simulation
import Winnow.Proofs.Store.FromTree

/-!
# What a policy guarantees

After a pass over a document every element that is left was there before, under
the same name and with no attribute that has not been granted to it; and of each
name outside the structure of the document no more are left than its budget
admits.
-/

namespace Winnow

/-- An element as a policy lets it stay. -/
structure Policy.Complies (policy : Policy) (before after : Label) : Prop where
  tag : after.tag = before.tag
  allowed : policy.forbids (Text.lower after.tag) = false
  budget : isStructural (Text.lower after.tag) = false →
    0 < policy.effectiveBudget (Text.lower after.tag)
  granted : ∀ entry ∈ after.attributes,
    policy.Granted (Text.lower after.tag) before.attributes entry
  names : after.attributes.names.Sublist before.attributes.names
  others : (Policy.withoutStyles after.attributes).Sublist
    (Policy.withoutStyles before.attributes)

theorem Policy.Keeps.complies {policy : Policy} {before after : Label}
    (hkeeps : policy.Keeps before after) (helement : after.isElement = true) :
    policy.Complies before after := by
  cases hkeeps with
  | other hother =>
      rw [hother] at helement
      cases helement
  | element attributes _ hallowed hbudget hattributes =>
      refine ⟨rfl, hallowed, fun hstructural => ?_,
        Policy.granted_of_filterAttributes hattributes,
        Policy.names_sublist_of_filterAttributes hattributes,
        Policy.withoutStyles_sublist_of_filterAttributes hattributes⟩
      rcases hbudget with hfree | hpositive
      · dsimp only at hstructural
        rw [hfree] at hstructural
        cases hstructural
      · exact hpositive

namespace Store

open Layout

/-- The labels of a forest in document order. -/
theorem map_label_preorderAll {store : Store} (forest : List Layout) :
    (Tree.preorderAll (store.readAll forest)).map Tree.label =
      (handlesAll forest).map store.label := by
  induction forest using forest_induction with
  | nil => rfl
  | cons handle parts rest ihParts ihRest =>
      rw [readAll, read, Tree.preorderAll, Tree.preorder, List.map_append, List.map_cons, ihParts,
        ihRest, handlesAll_cons, handles_node, List.map_append, List.map_cons]
      rfl

/-- Elements are counted in a forest as in the trees that it stands for. -/
theorem countNames_readAll {store : Store} (counted : String → Bool) (forest : List Layout) :
    Tree.countNames counted (store.readAll forest) =
      (store.elementsOf forest).countP fun handle =>
        counted (Text.lower (store.label handle).tag) := by
  have htrees : Tree.countNames counted (store.readAll forest) =
      ((Tree.preorderAll (store.readAll forest)).map Tree.label).countP fun label =>
        label.isElement && counted (Text.lower label.tag) := by
    rw [List.countP_map]
    rfl
  rw [htrees, map_label_preorderAll, List.countP_map, elementsOf, List.countP_filter]
  refine List.countP_congr fun handle _ => ?_
  simp [and_comm]

/-- The elements kept of a name are measured by its count. -/
def countOf {tag : String} (htag : isStructural tag = false) :
    Tree.Measure (fun other => other == tag) where
  of usage := usage.count tag
  of_add usage other _ := usage.count_add other tag
  not_structural other hstructural := by
    rw [beq_eq_false_iff_ne]
    rintro rfl
    rw [hstructural] at htag
    cases htag

variable {policy : Policy} {store after : Store} {root : Handle} {tally : Tally}

/-- What a pass over a document leaves, with the tally that goes with it. -/
theorem IsForest.exists_enforced (hforest : store.IsForest) (htop : store.parent root = none)
    (hdocument : (store.label root).tag = "#document")
    (hok : store.enforce policy root = .ok (after, tally)) :
    tally.Sound policy ∧ ∃ parts results, Enforced policy store after root parts results ∧
      Tree.trimLoose policy {} (store.toTree root) =
        .ok ([.node (after.label root) (after.readAll results)], tally.usage) := by
  have hagree := hforest.agree_enforce htop hdocument policy
  rw [hok] at hagree
  generalize hplain : Tree.trimLoose policy {} (store.toTree root) = plain at hagree
  cases hagree with
  | done hsound hrelated =>
      obtain ⟨parts, results, henforced, rfl⟩ := hrelated
      exact ⟨hsound, parts, results, henforced, rfl⟩

namespace Enforced

variable {parts results : List Layout} (henforced : Enforced policy store after root parts results)
include henforced

theorem elements_before : store.elements root = store.elementsOf [.node root parts] := by
  have hplaced := henforced.placed
  refine hplaced.isForest.elements_eq ?_ hplaced.holds henforced.lt_size
  rw [hplaced.children, List.nil_append, List.append_nil]

theorem elements_after : after.elements root = after.elementsOf [.node root results] := by
  have hplaced := henforced.reworked.placed
  have hlt := henforced.lt_size.trans_le henforced.reworked.confined.size_le
  refine hplaced.isForest.elements_eq ?_ hplaced.holds hlt
  rw [hplaced.children, List.nil_append, List.append_nil]

theorem not_isElement (hdocument : (store.label root).tag = "#document") :
    (after.label root).isElement = false := by
  apply Label.isElement_of_isDocument
  rw [henforced.label, Label.isDocument, hdocument]
  rfl

/-- An element that is left was there before and has what it may keep. -/
theorem complies (hdocument : (store.label root).tag = "#document") :
    ∀ handle ∈ after.elements root,
      handle ∈ store.elements root ∧ policy.Complies (store.label handle) (after.label handle) := by
  rw [henforced.elements_before, henforced.elements_after,
    elementsOf_node_of_not_isElement (henforced.not_isElement hdocument)]
  intro handle hmem
  obtain ⟨hin, helement⟩ := List.mem_filter.mp hmem
  rcases henforced.reworked.origin handle hin with ⟨hold, hkeeps⟩ | ⟨-, htext⟩
  · have hcomplies := hkeeps.complies helement
    refine ⟨List.mem_filter.mpr ⟨by simp [hold], ?_⟩, hcomplies⟩
    rw [Label.isElement, hcomplies.tag] at helement
    exact helement
  · rw [htext] at helement
    cases helement

end Enforced

end Store

/-- How many elements of a name outside the structure may be left by a pass. -/
def Policy.admitted (policy : Policy) (tag : String) : Nat :=
  if tag = "plaintext" ∨ (tag = "script" ∧ policy.config.allowJavaScript = false) then 0
  else policy.budgetFor tag

/-- A name that is not admitted belongs to no element that complies. -/
theorem Policy.Complies.ne_of_admitted {policy : Policy} {before after : Label}
    (hcomplies : policy.Complies before after)
    (hstructural : isStructural (Text.lower after.tag) = false) :
    ¬ (Text.lower after.tag = "plaintext" ∨
      (Text.lower after.tag = "script" ∧ policy.config.allowJavaScript = false)) := by
  rintro (hplain | ⟨hscript, hoff⟩)
  · have hbudget := hcomplies.budget hstructural
    rw [hplain] at hbudget
    exact absurd hbudget (by simp [effectiveBudget, unclosableTags])
  · have hallowed := hcomplies.allowed
    rw [hscript, forbids, hoff] at hallowed
    exact absurd hallowed (by simp)

namespace Store

variable {policy : Policy} {store after : Store} {root : Handle} {tally : Tally}

/-- After a pass over a document there are no more elements of a name outside its structure
than the policy admits, and every element was there before, under its name, with attributes
that have been granted to it in the order they had. -/
theorem enforce_guarantees (hforest : store.IsForest) (htop : store.parent root = none)
    (hdocument : (store.label root).tag = "#document")
    (hok : store.enforce policy root = .ok (after, tally)) :
    (∀ tag, isStructural tag = false →
      ((after.elements root).countP fun handle => Text.lower (after.label handle).tag == tag) ≤
        policy.admitted tag) ∧
      ∀ handle ∈ after.elements root, handle ∈ store.elements root ∧
        policy.Complies (store.label handle) (after.label handle) := by
  obtain ⟨hsound, parts, results, henforced, htrim⟩ :=
    hforest.exists_enforced htop hdocument hok
  have hcomplies := henforced.complies hdocument
  refine ⟨fun tag hstructural => ?_, hcomplies⟩
  unfold Policy.admitted
  split
  next hbarred =>
    refine Nat.le_of_eq (List.countP_eq_zero.mpr fun handle hmem heq => ?_)
    rw [beq_iff_eq] at heq
    have hstays := (hcomplies handle hmem).2.ne_of_admitted (by rwa [heq])
    rw [heq] at hstays
    exact hstays hbarred
  next =>
    have hother := henforced.not_isElement hdocument
    have hcount := (countOf hstructural).countNames_le_tree htrim
    rw [Tree.countNames_node, hother, countNames_readAll] at hcount
    rw [henforced.elements_after, elementsOf_node_of_not_isElement hother]
    refine Nat.le_trans ?_ (hsound.within tag hstructural)
    exact Nat.le_of_add_right_le (Nat.le_of_add_left_le hcount)

/-- A document with two paragraphs in a division, and with attributes on all of them. -/
def paragraphs : Tree :=
  .node .document [.node { tag := "DIV", attributes := [("id", some "a")] }
    [.node { tag := "p", attributes := [("onclick", some "f()"), ("class", some "b")] } [],
      .node { tag := "p" } []]]

theorem enforce_guarantees_paragraphs :
    ∃ after tally, (ofTree paragraphs).enforce (Policy.ofLines ["p", "p|class"] {}) 0 =
        .ok (after, tally) ∧
      ((after.elements 0).countP fun handle => Text.lower (after.label handle).tag == "p") ≤ 1 := by
  have hlabel := label_ofTree paragraphs
  have hdocument : ((ofTree paragraphs).label 0).tag = "#document" := by
    rw [hlabel]
    rfl
  cases hok : (ofTree paragraphs).enforce (Policy.ofLines ["p", "p|class"] {}) 0 with
  | error fault =>
      have hdone : ((ofTree paragraphs).enforce (Policy.ofLines ["p", "p|class"] {}) 0).isOk =
          true := by decide +kernel
      rw [hok] at hdone
      cases hdone
  | ok reached =>
      have hall := enforce_guarantees (isForest_ofTree paragraphs) (parent_ofTree paragraphs)
        hdocument hok
      exact ⟨reached.1, reached.2, rfl, hall.1 "p" (by decide)⟩

end Store

end Winnow
