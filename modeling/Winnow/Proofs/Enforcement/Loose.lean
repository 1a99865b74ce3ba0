import Winnow.Proofs.Document.Tree
import Winnow.Proofs.Fault
import Winnow.Proofs.Store.FromTree
import Winnow.Trimming

/-!
# Loose documents

A document node directly inside a style element comes loose when the text of the
element is replaced: it is cut off like all old content, but what lies below it
is still below a document. The elements there are met as connected ones and
count against the budgets, though nothing of them stays. `Tree.trimLoose` is
`Tree.trim` with this count; the two agree where no element is below a document
in a style element, as in everything that is read from a text.
-/

namespace Winnow

/-- Is this the node of a document? -/
def Label.isDocument (label : Label) : Bool := label.tag == "#document"

theorem Label.isElement_of_isDocument {label : Label} (hdocument : label.isDocument = true) :
    label.isElement = false := by
  rw [isDocument, beq_iff_eq] at hdocument
  rw [isElement, hdocument]
  decide

theorem Label.isElement_ofText (text : String) : (Label.ofText text).isElement = false := by
  change (!("#text".toList.head? == some '#')) = false
  decide

mutual

/-- What a tree is replaced by, and the budgets used after it, loose documents counted. -/
def Tree.trimLoose (policy : Policy) (usage : Usage) : Tree → Except Fault (List Tree × Usage)
  | .node label children =>
    if !label.isElement then do
      let (children, usage) ← Tree.trimLooseAll policy usage children
      return ([.node label children], usage)
    else
      let tag := Text.lower label.tag
      match policy.treatment usage tag with
      | .remove => .ok ([], usage)
      | .unwrap => Tree.trimLooseAll policy usage children
      | .keep counted => do
        let attributes ← policy.filterAttributes tag label.attributes
        let label := { label with attributes := attributes }
        let usage := if counted then usage.add tag else usage
        if tag = "style" then
          match ← policy.filterStyleText (Tree.node label children).directText with
          | some text => do
            let usage ← Tree.countLoose policy usage children
            return ([.node label [.ofText text]], usage)
          | none => return ([], usage)
        else
          let (children, usage) ← Tree.trimLooseAll policy usage children
          return ([.node label children], usage)

/-- What a forest is replaced by, and the budgets used after it, loose documents counted. -/
def Tree.trimLooseAll (policy : Policy) (usage : Usage) :
    List Tree → Except Fault (List Tree × Usage)
  | [] => .ok ([], usage)
  | tree :: rest => do
    let (front, usage) ← Tree.trimLoose policy usage tree
    let (back, usage) ← Tree.trimLooseAll policy usage rest
    return (front ++ back, usage)

/-- The budgets used after a replaced content, of which only the documents count. -/
def Tree.countLoose (policy : Policy) (usage : Usage) : List Tree → Except Fault Usage
  | [] => .ok usage
  | tree :: rest =>
    if tree.label.isDocument then do
      let (_, usage) ← Tree.trimLoose policy usage tree
      Tree.countLoose policy usage rest
    else Tree.countLoose policy usage rest

end

/-- No document that a style element of the tree directly holds has an element below it. -/
def Tree.SheetsHoldNoElement (tree : Tree) : Prop :=
  ∀ part ∈ tree.preorder, Text.lower part.label.tag = "style" →
    ∀ child ∈ part.children, child.label.isDocument = true →
      ∀ lower ∈ child.preorder, lower.label.isElement = false

instance (tree : Tree) : Decidable tree.SheetsHoldNoElement :=
  inferInstanceAs (Decidable (∀ part ∈ tree.preorder, Text.lower part.label.tag = "style" →
    ∀ child ∈ part.children, child.label.isDocument = true →
      ∀ lower ∈ child.preorder, lower.label.isElement = false))

namespace Tree

theorem SheetsHoldNoElement.of_mem_children {label : Label} {children : List Tree}
    (hsheets : (node label children).SheetsHoldNoElement) {child : Tree}
    (hchild : child ∈ children) : child.SheetsHoldNoElement := by
  intro part hpart
  apply hsheets part
  rw [preorder, List.mem_cons, mem_preorderAll]
  exact Or.inr ⟨child, hchild, hpart⟩

/-- A forest without elements stays as it is. -/
theorem trimLooseAll_eq_self (policy : Policy) (usage : Usage) (forest : List Tree)
    (hnone : ∀ part ∈ preorderAll forest, part.label.isElement = false) :
    trimLooseAll policy usage forest = .ok (forest, usage) := by
  induction forest using forest_induction with
  | nil => rw [trimLooseAll]
  | cons label children rest ihChildren ihRest =>
      rw [preorderAll, preorder] at hnone
      have hlabel : label.isElement = false := hnone (node label children) List.mem_cons_self
      have hchildren := ihChildren fun part hpart =>
        hnone part (List.mem_append_left _ (List.mem_cons_of_mem _ hpart))
      have hrest := ihRest fun part hpart => hnone part (List.mem_append_right _ hpart)
      rw [trimLooseAll, trimLoose, hlabel, hchildren]
      simp only [Bool.not_false, if_true, Fault.ok_bind, pure_bind, hrest]
      rfl

theorem countLoose_eq (policy : Policy) (usage : Usage) (children : List Tree)
    (hnone : ∀ child ∈ children, child.label.isDocument = true →
      ∀ lower ∈ child.preorder, lower.label.isElement = false) :
    countLoose policy usage children = .ok usage := by
  induction children with
  | nil => rw [countLoose]
  | cons child rest ih =>
      have hrest := ih fun other hother => hnone other (List.mem_cons_of_mem _ hother)
      rw [countLoose]
      split
      next hdocument =>
        obtain ⟨label, children⟩ := child
        have hlower := hnone _ List.mem_cons_self hdocument
        rw [preorder] at hlower
        have hlabel : label.isElement = false := hlower (node label children) List.mem_cons_self
        have hchildren := trimLooseAll_eq_self policy usage children fun part hpart =>
          hlower part (List.mem_cons_of_mem _ hpart)
        rw [trimLoose, hlabel, hchildren]
        exact hrest
      next => exact hrest

/-- Where nothing counts in loose documents the two do the same to a tree, if they do to what
is below its top. -/
theorem trimLoose_eq_trim_of_children {policy : Policy} {label : Label} {children : List Tree}
    (hsheets : (node label children).SheetsHoldNoElement)
    (hchildren : ∀ usage, trimLooseAll policy usage children = trimAll policy usage children)
    (usage : Usage) :
    trimLoose policy usage (node label children) = trim policy usage (node label children) := by
  have hloose : Text.lower label.tag = "style" → ∀ usage,
      countLoose policy usage children = .ok usage := by
    intro hstyle usage
    have hmem : node label children ∈ (node label children).preorder := by
      rw [preorder]
      exact List.mem_cons_self
    exact countLoose_eq policy usage children (hsheets (node label children) hmem hstyle)
  rw [trimLoose, trim]
  simp only [hchildren]
  split
  next => rfl
  next =>
    cases policy.treatment usage (Text.lower label.tag) with
    | remove => rfl
    | unwrap => rfl
    | keep counted =>
        cases policy.filterAttributes (Text.lower label.tag) label.attributes with
        | error fault => rfl
        | ok attributes =>
            simp only [Fault.ok_bind]
            split
            next hstyle =>
              simp only [hloose hstyle]
              rfl
            next => rfl

theorem trimLooseAll_eq_trimAll (policy : Policy) (forest : List Tree) (usage : Usage)
    (hsheets : ∀ tree ∈ forest, tree.SheetsHoldNoElement) :
    trimLooseAll policy usage forest = trimAll policy usage forest := by
  induction forest using forest_induction generalizing usage with
  | nil => rw [trimLooseAll, trimAll]
  | cons label children rest ihChildren ihRest =>
      have hself := hsheets _ List.mem_cons_self
      have hrest : ∀ usage, trimLooseAll policy usage rest = trimAll policy usage rest :=
        fun usage => ihRest usage fun tree htree => hsheets tree (List.mem_cons_of_mem _ htree)
      rw [trimLooseAll, trimAll, trimLoose_eq_trim_of_children hself fun usage =>
        ihChildren usage fun child hchild => hself.of_mem_children hchild]
      simp only [hrest]

/-- Where nothing counts in loose documents the two recursions are one. -/
theorem trimLoose_eq_trim (policy : Policy) (usage : Usage) {tree : Tree}
    (hsheets : tree.SheetsHoldNoElement) :
    trimLoose policy usage tree = trim policy usage tree := by
  obtain ⟨label, children⟩ := tree
  exact trimLoose_eq_trim_of_children hsheets (fun usage =>
    trimLooseAll_eq_trimAll policy children usage fun _ hchild =>
      hsheets.of_mem_children hchild) usage

end Tree

end Winnow
