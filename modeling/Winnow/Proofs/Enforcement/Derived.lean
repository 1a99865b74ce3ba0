import Winnow.Proofs.Enforcement.Refinement
import Winnow.Proofs.Enforcement.Repeated
import Winnow.Proofs.Reference

/-!
# A document under its own rules

The policy of a document has room for every element of it and allows every attribute that it
has, so the budgets last to the end. Only what no such rules admit is left out: style elements
and style attributes, for want of style rules, and elements that no end tag closes.
-/

namespace Winnow

mutual

/-- What a tree is replaced by without styles and without `plaintext` elements: a style element
goes with its content, and the content of a `plaintext` element takes its place. -/
def Tree.unstyle : Tree → List Tree
  | .node label children =>
    if !label.isElement then [.node label (unstyleAll children)]
    else if Text.lower label.tag = "style" then []
    else if Text.lower label.tag = "plaintext" then unstyleAll children
    else
      [.node { label with attributes := Policy.withoutStyles label.attributes }
        (unstyleAll children)]

/-- What a forest is replaced by without styles and without `plaintext` elements. -/
def Tree.unstyleAll : List Tree → List Tree
  | [] => []
  | tree :: rest => unstyle tree ++ unstyleAll rest

end

/-- A document with what is below it in place of its own without styles. -/
def Tree.unstyled : Tree → Tree
  | .node label children => .node label (unstyleAll children)

namespace Policy

variable {policy : Policy}

/-- Where so much has been used, a policy has room for the elements of a forest, and it allows
all their attributes. -/
structure Covers (policy : Policy) (usage : Usage) (forest : List Tree) : Prop where
  budget : ∀ tag,
    usage.count tag + Tree.countNames (· == tag) forest ≤ policy.budgetFor tag
  attributes : ∀ label ∈ Tree.elementLabels forest, ∀ entry ∈ label.attributes,
    Text.lower entry.1 ∈ policy.allowedAttributes (Text.lower label.tag)

theorem treatment_plaintext (policy : Policy) (usage : Usage) :
    policy.treatment usage "plaintext" = .unwrap := by
  simp [treatment, forbids, isStructural, structuralTags, effectiveBudget, unclosableTags]

section Lenient

variable (hstyles : policy.styleAllow = []) (hscripts : policy.config.allowJavaScript = true)
include hstyles

theorem treatment_style (usage : Usage) : policy.treatment usage "style" = .remove := by
  rw [treatment, if_pos (forbids_style hstyles)]

include hscripts

omit hstyles in
/-- An element with room left is kept, unless it is a style or nothing closes it. -/
theorem treatment_of_lt {usage : Usage} {tag : String} (hstyle : tag ≠ "style")
    (hplain : tag ≠ "plaintext") (hroom : usage.count tag < policy.budgetFor tag) :
    policy.treatment usage tag = .keep (!isStructural tag) := by
  have hforbids : policy.forbids tag = false := by simp [forbids, hscripts, hstyle]
  have hbudget : policy.effectiveBudget tag = policy.budgetFor tag := by
    simp [effectiveBudget, unclosableTags, hplain]
  rw [treatment, hforbids, if_neg Bool.false_ne_true, hbudget]
  cases isStructural tag with
  | true => rfl
  | false => rw [if_neg Bool.false_ne_true, if_neg (by omega), if_neg (by omega), Bool.not_false]

/-- If all names are allowed, the attributes that are no styles are kept. -/
theorem filterAttributes_of_allowed {tag : String} {attributes : Attributes}
    (hallowed : ∀ entry ∈ attributes, Text.lower entry.1 ∈ policy.allowedAttributes tag) :
    policy.filterAttributes tag attributes = .ok (withoutStyles attributes) := by
  induction attributes with
  | nil =>
      rw [filterAttributes]
      rfl
  | cons first rest ih =>
      obtain ⟨name, value⟩ := first
      have hlisted := hallowed _ List.mem_cons_self
      have hrest := ih fun entry hmem => hallowed entry (List.mem_cons_of_mem _ hmem)
      have hjudge : policy.judge tag name value =
          .ok (if Text.lower name = "style" then .drop else .keep) := by
        rw [judge, hscripts]
        simp only [Bool.not_true, Bool.false_and, Bool.false_eq_true, if_false,
          List.contains_iff_mem.mpr hlisted]
        split
        next hstyle => rw [hstyle, judgeValue_style hstyles]
        next hstyle => simp [judgeValue, hstyle, hscripts]
      rw [filterAttributes, hjudge, Fault.ok_bind, hrest, Fault.ok_bind]
      unfold withoutStyles
      rw [List.filter_cons]
      by_cases hstyle : Text.lower name = "style"
      · rw [if_pos hstyle, if_neg (by simp [hstyle])]
        rfl
      · rw [if_neg hstyle, if_pos (by simp [hstyle])]
        rfl

end Lenient

end Policy

/-! ## The recursion with room for everything -/

theorem Usage.count_keep_le (usage : Usage) (tag other : String) (counted : Bool) :
    (usage.keep tag counted).count other ≤ usage.count other + if tag == other then 1 else 0 := by
  cases counted with
  | false => exact Nat.le_add_right _ _
  | true => exact Nat.le_of_eq (usage.count_add tag other)

namespace Tree

variable {policy : Policy}

theorem countNames_cons (counted : String → Bool) (tree : Tree) (rest : List Tree) :
    countNames counted (tree :: rest) = countNames counted [tree] + countNames counted rest :=
  countNames_append [tree] rest

theorem countNames_eq_countP (counted : String → Bool) (forest : List Tree) :
    countNames counted forest =
      (elementLabels forest).countP fun label => counted (Text.lower label.tag) := by
  rw [elementLabels, List.countP_filter, List.countP_map, countNames]
  refine List.countP_congr fun tree _ => ?_
  simp [and_comm]

theorem elementLabels_cons (tree : Tree) (rest : List Tree) :
    elementLabels (tree :: rest) = elementLabels [tree] ++ elementLabels rest :=
  elementLabels_append [tree] rest

end Tree

namespace Policy

open Winnow.Tree

variable {policy : Policy} {usage : Usage} {label : Label} {children : List Tree}

/-- There is room for a part if no more is used and counted than for the whole. -/
theorem Covers.part {whole part : List Tree} {used : Usage} (hcovers : policy.Covers usage whole)
    (hcount : ∀ tag, used.count tag + countNames (· == tag) part ≤
      usage.count tag + countNames (· == tag) whole)
    (hlabels : ∀ label ∈ elementLabels part, label ∈ elementLabels whole) :
    policy.Covers used part where
  budget tag := (hcount tag).trans (hcovers.budget tag)
  attributes label hmem := hcovers.attributes label (hlabels label hmem)

theorem Covers.below (hcovers : policy.Covers usage [.node label children]) :
    policy.Covers usage children := by
  refine hcovers.part (fun tag => ?_) fun other hmem => ?_
  · rw [countNames_node]
    omega
  · rw [elementLabels_node]
    split
    · exact List.mem_cons_of_mem _ hmem
    · exact hmem

theorem Covers.below_keep (hcovers : policy.Covers usage [.node label children])
    (helement : label.isElement = true) (counted : Bool) :
    policy.Covers (usage.keep (Text.lower label.tag) counted) children := by
  refine ⟨fun tag => ?_, hcovers.below.attributes⟩
  have hkeep := usage.count_keep_le (Text.lower label.tag) tag counted
  have hbudget := hcovers.budget tag
  rw [countNames_node, helement, Bool.true_and] at hbudget
  omega

/-- With room for a forest the recursion leaves out nothing but styles and `plaintext` elements,
and no budget is used for more than the elements there are. -/
def Spares (policy : Policy) (forest : List Tree) : Prop :=
  ∀ usage, policy.Covers usage forest → ∃ after,
    trimLooseAll policy usage forest = .ok (unstyleAll forest, after) ∧
      ∀ tag, after.count tag ≤ usage.count tag + countNames (· == tag) forest

variable (hstyles : policy.styleAllow = []) (hscripts : policy.config.allowJavaScript = true)
include hstyles hscripts

theorem Spares.node (hchildren : policy.Spares children)
    (hcovers : policy.Covers usage [.node label children]) :
    ∃ after, trimLoose policy usage (.node label children) =
        .ok (unstyle (.node label children), after) ∧
      ∀ tag, after.count tag ≤ usage.count tag + countNames (· == tag) [.node label children] := by
  -- What the content uses is within what the node counts.
  have hwider : ∀ {after : Usage} {tag : String},
      after.count tag ≤ usage.count tag + countNames (· == tag) children →
        after.count tag ≤ usage.count tag + countNames (· == tag) [.node label children] := by
    intro after tag hle
    rw [countNames_node]
    omega
  cases helement : label.isElement with
  | false =>
      obtain ⟨after, hbelow, hcount⟩ := hchildren usage hcovers.below
      refine ⟨after, ?_, fun tag => hwider (hcount tag)⟩
      rw [trimLoose, unstyle, helement, hbelow]
      rfl
  | true =>
      rw [trimLoose, unstyle, helement]
      simp only [Bool.not_true, Bool.false_eq_true, if_false]
      by_cases hstyle : Text.lower label.tag = "style"
      · refine ⟨usage, ?_, fun tag => Nat.le_add_right _ _⟩
        rw [if_pos hstyle, hstyle, treatment_style hstyles]
      · rw [if_neg hstyle]
        by_cases hplain : Text.lower label.tag = "plaintext"
        · obtain ⟨after, hbelow, hcount⟩ := hchildren usage hcovers.below
          refine ⟨after, ?_, fun tag => hwider (hcount tag)⟩
          rw [if_pos hplain, hplain, treatment_plaintext]
          exact hbelow
        · have hroom : usage.count (Text.lower label.tag) <
              policy.budgetFor (Text.lower label.tag) := by
            have hbudget := hcovers.budget (Text.lower label.tag)
            rw [countNames_node, helement, Bool.true_and, if_pos (beq_self_eq_true _)] at hbudget
            omega
          have hattributes := filterAttributes_of_allowed hstyles hscripts
            (hcovers.attributes label (by simp [elementLabels_node, helement]))
          obtain ⟨after, hbelow, hcount⟩ := hchildren _
            (hcovers.below_keep helement (!isStructural (Text.lower label.tag)))
          refine ⟨after, ?_, fun tag => ?_⟩
          · rw [if_neg hplain, treatment_of_lt hscripts hstyle hplain hroom]
            dsimp only
            rw [hattributes, Fault.ok_bind, if_neg hstyle]
            -- The budgets that the children meet have counted the element itself.
            change (trimLooseAll policy (usage.keep _ _) children >>= _) = _
            rw [hbelow]
            rfl
          · have hkeep := usage.count_keep_le (Text.lower label.tag) tag
              (!isStructural (Text.lower label.tag))
            rw [countNames_node, helement, Bool.true_and]
            exact (hcount tag).trans (by omega)

theorem spares (forest : List Tree) : policy.Spares forest := by
  induction forest using forest_induction with
  | nil =>
      refine fun usage _ => ⟨usage, ?_, fun tag => Nat.le_refl _⟩
      rw [trimLooseAll, unstyleAll]
  | cons label children rest ihChildren ihRest =>
      intro usage hcovers
      have hlabels := elementLabels_cons (.node label children) rest
      have hcounts := fun tag => countNames_cons (· == tag) (.node label children) rest
      have hfront : policy.Covers usage [.node label children] := by
        refine hcovers.part (fun tag => ?_) fun other hmem => ?_
        · rw [hcounts]
          omega
        · rw [hlabels]
          exact List.mem_append_left _ hmem
      -- The first tree uses up no more than it counts, which leaves room for the others.
      obtain ⟨middle, hfirst, hmiddle⟩ := Spares.node hstyles hscripts ihChildren hfront
      have hback : policy.Covers middle rest := by
        refine hcovers.part (fun tag => ?_) fun other hmem => ?_
        · rw [hcounts, ← Nat.add_assoc]
          exact Nat.add_le_add_right (hmiddle tag) _
        · rw [hlabels]
          exact List.mem_append_right _ hmem
      obtain ⟨after, hsecond, hafter⟩ := ihRest middle hback
      refine ⟨after, ?_, fun tag => ?_⟩
      · rw [trimLooseAll, hfirst, Fault.ok_bind]
        dsimp only
        rw [hsecond]
        rfl
      · rw [hcounts, ← Nat.add_assoc]
        exact (hafter tag).trans (Nat.add_le_add_right (hmiddle tag) _)

end Policy

/-! ## Documents under their own rules -/

namespace Tree

variable {policy : Policy}

/-- A pass with room for a whole document leaves it without its styles and its `plaintext`
elements. -/
theorem enforce_of_covers {document : Tree} (hdocument : document.label.tag = "#document")
    (hstyles : policy.styleAllow = []) (hscripts : policy.config.allowJavaScript = true)
    (hcovers : policy.Covers {} [document]) :
    ∃ tally, document.enforce policy = .ok (document.unstyled, tally) := by
  obtain ⟨label, children⟩ := document
  have helement : label.isElement = false := Label.isElement_of_isDocument (by
    rw [Label.isDocument, beq_iff_eq]
    exact hdocument)
  obtain ⟨after, htrim, -⟩ :=
    Policy.Spares.node hstyles hscripts (Policy.spares hstyles hscripts children) hcovers
  rw [unstyle, helement] at htrim
  have hpass := (Store.isForest_ofTree (node label children)).enforce_eq_trimLoose
    (Store.parent_ofTree _) (by rw [Store.label_ofTree]; exact hdocument) policy
  rw [Store.toTree_ofTree, htrim] at hpass
  unfold enforce
  cases hok : (Store.ofTree (node label children)).enforce policy 0 with
  | error fault =>
      rw [hok] at hpass
      cases hpass
  | ok reached =>
      rw [hok] at hpass
      have hresult := congrArg Prod.fst (Except.ok.inj hpass)
      refine ⟨reached.2, ?_⟩
      rw [Fault.ok_bind]
      change Except.ok (reached.1.toTree 0, reached.2) = _
      rw [List.singleton_inj.mp hresult]
      rfl

theorem elementLabels_singleton (tree : Tree) :
    elementLabels [tree] = tree.elements.map Tree.label := by
  rw [elementLabels, preorderAll, preorderAll, List.append_nil, elements, List.filter_map]
  rfl

end Tree

namespace Reference

open Inventory

/-- The policy of a forest has room for it and allows its attributes. -/
theorem covers_lines {forest : List Tree}
    (hnamed : ∀ label ∈ Tree.elementLabels forest, label.IsNamed) {config : Config}
    (hcommon : config.allowCommonAttributes = false) :
    (Policy.ofLines (ofLabels (Tree.elementLabels forest)).lines config).Covers {} forest where
  budget tag := by
    rw [budgetFor_lines hnamed, Tree.countNames_eq_countP]
    exact Nat.le_of_eq (Nat.zero_add _)
  attributes label hmem entry hentry := by
    have hconfig := congrArg Config.allowCommonAttributes (Policy.config_ofRules
      ((ofLabels (Tree.elementLabels forest)).lines.map Rule.parse) config)
    rw [Policy.ofLines, Policy.mem_allowedAttributes_of_uncommon (hconfig.trans hcommon)]
    exact (mem_listed_lines hnamed config).mpr ⟨label, hmem, List.mem_map_of_mem hentry⟩

/-- The rules of a document that is read, with scripts allowed, leave of it all but its styles
and its `plaintext` elements. -/
theorem enforce_derived {text : String} {document : Tree}
    (hparse : Html.parse text = .ok document)
    (hplain : ∀ element ∈ document.elements, element.label.hasPlainNames = true) :
    ∃ lines policy tally, Reference.rules text = .ok lines ∧
      Policy.compile (Rule.lines lines) (.mapping [("allowJavaScript", .bool true)]) =
        .ok policy ∧
      document.enforce policy = .ok (document.unstyled, tally) := by
  have hnamed := isNamed_of_parse hparse hplain
  have hrules := rules_eq hparse
  rw [← Tree.elementLabels_singleton] at hnamed hrules
  have hconfig : Config.ofValue (.mapping [("allowJavaScript", .bool true)]) =
      .ok { allowJavaScript := true } := rfl
  have hscripts := congrArg Config.allowJavaScript (Policy.config_ofRules
    ((ofLabels (Tree.elementLabels [document])).lines.map Rule.parse) { allowJavaScript := true })
  obtain ⟨tally, henforce⟩ := Tree.enforce_of_covers (Html.elements_of_parse hparse).1
    (styleAllow_lines hnamed _) hscripts (covers_lines hnamed rfl)
  exact ⟨_, _, tally, hrules, Policy.compile_lines _ hconfig, henforce⟩

/-- A page with everything that its own rules do not keep: a style attribute, a style element,
and an element that nothing closes. -/
def page : String := "<p class=a style=b>x<svg><a Href=c></svg><style>y</style><plaintext>z"

theorem enforce_derived_page :
    ∃ document lines policy tally, Html.parse page = .ok document ∧
      Reference.rules page = .ok lines ∧
      Policy.compile (Rule.lines lines) (.mapping [("allowJavaScript", .bool true)]) =
        .ok policy ∧
      document.enforce policy = .ok (document.unstyled, tally) := by
  have hplain : ((Html.parse page).map fun document =>
      document.elements.all (·.label.hasPlainNames)) = .ok true := by decide +kernel
  cases hparse : Html.parse page with
  | error fault =>
      rw [hparse] at hplain
      cases hplain
  | ok document =>
      rw [hparse] at hplain
      obtain ⟨lines, policy, tally, hderived⟩ := enforce_derived hparse fun element hmem =>
        List.all_eq_true.mp (Except.ok.inj hplain) element hmem
      exact ⟨document, lines, policy, tally, rfl, hderived⟩

end Reference

end Winnow
