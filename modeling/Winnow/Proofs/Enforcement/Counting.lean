import Mathlib.Data.List.Count
import Winnow.Proofs.Assoc
import Winnow.Proofs.Enforcement.Loose
import Winnow.Proofs.Enforcement.Visit
import Winnow.Proofs.Fault

/-!
# What is left has been counted

The recursion counts every element with a budget that it leaves, and more only
for style elements that it then takes out and for what is below loose documents.
So however the count is measured, what is left is within what has been used.
-/

namespace Winnow

theorem Usage.count_add (usage : Usage) (tag other : String) :
    (usage.add tag).count other = usage.count other + if tag == other then 1 else 0 := by
  unfold count add
  dsimp only
  rw [Assoc.find?_put]
  by_cases heq : other = tag
  · subst heq
    simp [count]
  · rw [if_neg heq, beq_eq_false_iff_ne.mpr (Ne.symm heq)]
    rfl

/-- The usage after an element that counts or does not. -/
def Usage.keep (usage : Usage) (tag : String) (counted : Bool) : Usage :=
  if counted then usage.add tag else usage

namespace Tree

/-- What the recursion has made of a tree and of the budgets, when it has not failed. -/
inductive Trimmed (policy : Policy) (usage : Usage) (label : Label) (children : List Tree) :
    List Tree → Usage → Prop
  | other {below : List Tree} {after : Usage} (hother : label.isElement = false)
      (hbelow : trimLooseAll policy usage children = .ok (below, after)) :
      Trimmed policy usage label children [.node label below] after
  | remove (helement : label.isElement = true)
      (htreatment : policy.treatment usage (Text.lower label.tag) = .remove) :
      Trimmed policy usage label children [] usage
  | unwrap {trees : List Tree} {after : Usage} (helement : label.isElement = true)
      (htreatment : policy.treatment usage (Text.lower label.tag) = .unwrap)
      (hbelow : trimLooseAll policy usage children = .ok (trees, after)) :
      Trimmed policy usage label children trees after
  | keep {counted : Bool} {attributes : Attributes} {below : List Tree} {after : Usage}
      (helement : label.isElement = true)
      (htreatment : policy.treatment usage (Text.lower label.tag) = .keep counted)
      (hattributes : policy.filterAttributes (Text.lower label.tag) label.attributes =
        .ok attributes)
      (hstyle : Text.lower label.tag ≠ "style")
      (hbelow : trimLooseAll policy (usage.keep (Text.lower label.tag) counted) children =
        .ok (below, after)) :
      Trimmed policy usage label children
        [.node { label with attributes := attributes } below] after
  | sheet {counted : Bool} {attributes : Attributes} {text : String} {after : Usage}
      (helement : label.isElement = true)
      (htreatment : policy.treatment usage (Text.lower label.tag) = .keep counted)
      (hattributes : policy.filterAttributes (Text.lower label.tag) label.attributes =
        .ok attributes)
      (hstyle : Text.lower label.tag = "style")
      (htext : policy.filterStyleText (node label children).directText = .ok (some text))
      (hloose : countLoose policy (usage.keep (Text.lower label.tag) counted) children =
        .ok after) :
      Trimmed policy usage label children
        [.node { label with attributes := attributes } [.ofText text]] after
  | blank {counted : Bool} {attributes : Attributes} (helement : label.isElement = true)
      (htreatment : policy.treatment usage (Text.lower label.tag) = .keep counted)
      (hattributes : policy.filterAttributes (Text.lower label.tag) label.attributes =
        .ok attributes)
      (hstyle : Text.lower label.tag = "style")
      (htext : policy.filterStyleText (node label children).directText = .ok none) :
      Trimmed policy usage label children [] (usage.keep (Text.lower label.tag) counted)

variable {policy : Policy} {usage after : Usage} {label : Label} {children trees : List Tree}

theorem trimmed_of_trimLoose
    (hok : trimLoose policy usage (.node label children) = .ok (trees, after)) :
    Trimmed policy usage label children trees after := by
  rw [trimLoose] at hok
  cases helement : label.isElement with
  | false =>
      rw [helement] at hok
      obtain ⟨⟨below, reached⟩, hbelow, hresult⟩ := Fault.exists_of_bind_eq_ok hok
      cases hresult
      exact .other helement hbelow
  | true =>
      rw [helement] at hok
      simp only [Bool.not_true, Bool.false_eq_true, if_false] at hok
      cases htreatment : policy.treatment usage (Text.lower label.tag) with
      | remove =>
          rw [htreatment] at hok
          cases hok
          exact .remove helement htreatment
      | unwrap =>
          rw [htreatment] at hok
          exact .unwrap helement htreatment hok
      | keep counted =>
          rw [htreatment] at hok
          obtain ⟨attributes, hattributes, hrest⟩ := Fault.exists_of_bind_eq_ok hok
          split at hrest
          next hstyle =>
            obtain ⟨filtered, htext, hsheet⟩ := Fault.exists_of_bind_eq_ok hrest
            cases filtered with
            | none =>
                cases hsheet
                exact .blank helement htreatment hattributes hstyle htext
            | some text =>
                obtain ⟨reached, hloose, hresult⟩ := Fault.exists_of_bind_eq_ok hsheet
                cases hresult
                exact .sheet helement htreatment hattributes hstyle htext hloose
          next hstyle =>
            obtain ⟨⟨below, reached⟩, hbelow, hresult⟩ := Fault.exists_of_bind_eq_ok hrest
            cases hresult
            exact .keep helement htreatment hattributes hstyle hbelow

theorem exists_of_trimLooseAll_cons {tree : Tree} {rest : List Tree}
    (hok : trimLooseAll policy usage (tree :: rest) = .ok (trees, after)) :
    ∃ front middle back, trimLoose policy usage tree = .ok (front, middle) ∧
      trimLooseAll policy middle rest = .ok (back, after) ∧ trees = front ++ back := by
  rw [trimLooseAll] at hok
  obtain ⟨⟨front, middle⟩, hfirst, hrest⟩ := Fault.exists_of_bind_eq_ok hok
  obtain ⟨⟨back, reached⟩, hsecond, hresult⟩ := Fault.exists_of_bind_eq_ok hrest
  cases hresult
  exact ⟨front, middle, back, hfirst, hsecond, rfl⟩

/-! ## What a usage measures -/

/-- The number of elements of a forest whose names, written small, are counted. -/
def countNames (counted : String → Bool) (forest : List Tree) : Nat :=
  (preorderAll forest).countP fun tree =>
    tree.label.isElement && counted (Text.lower tree.label.tag)

/-- A number that goes up by one with every counted name that is added to a usage. -/
structure Measure (counted : String → Bool) where
  of : Usage → Nat
  of_add : ∀ usage tag, isStructural tag = false →
    of (usage.add tag) = of usage + if counted tag then 1 else 0
  not_structural : ∀ tag, isStructural tag = true → counted tag = false

section Names

variable {counted : String → Bool}

theorem countNames_nil : countNames counted [] = 0 := rfl

theorem countNames_append (front back : List Tree) :
    countNames counted (front ++ back) = countNames counted front + countNames counted back := by
  induction front with
  | nil => simp [countNames, preorderAll]
  | cons tree rest ih =>
      unfold countNames at ih ⊢
      rw [List.cons_append, preorderAll, List.countP_append, ih, preorderAll, List.countP_append,
        Nat.add_assoc]

theorem countNames_node (label : Label) (children : List Tree) :
    countNames counted [.node label children] = countNames counted children +
      if label.isElement && counted (Text.lower label.tag) then 1 else 0 := by
  unfold countNames
  rw [preorderAll, preorderAll, List.append_nil, preorder, List.countP_cons]
  rfl

theorem countNames_element {label : Label} (helement : label.isElement = true)
    (attributes : Attributes) (children : List Tree) :
    countNames counted [.node { label with attributes := attributes } children] =
      countNames counted children + if counted (Text.lower label.tag) then 1 else 0 := by
  have hsame : ({ label with attributes := attributes } : Label).isElement = true := helement
  rw [countNames_node]
  simp only [hsame, Bool.true_and]

theorem countNames_ofText (text : String) : countNames counted [.ofText text] = 0 := by
  rw [ofText, countNames_node, Label.isElement_ofText]
  rfl

end Names

namespace Measure

variable {counted : String → Bool} (measure : Measure counted)

theorem of_keep {tag : String} {counts : Bool}
    (hkeep : policy.treatment usage tag = .keep counts) :
    measure.of (usage.keep tag counts) = measure.of usage + if counted tag then 1 else 0 := by
  obtain ⟨-, ⟨rfl, hstructural⟩ | ⟨rfl, hstructural, -⟩⟩ := Policy.of_treatment_eq_keep hkeep
  · rw [measure.not_structural tag hstructural]
    rfl
  · exact measure.of_add usage tag hstructural

/-- The recursion measures every counted element that it leaves, and only more. -/
theorem countNames_le (forest : List Tree) :
    (∀ usage after trees, trimLooseAll policy usage forest = .ok (trees, after) →
      measure.of usage + countNames counted trees ≤ measure.of after) ∧
    ∀ usage after, countLoose policy usage forest = .ok after →
      measure.of usage ≤ measure.of after := by
  induction forest using forest_induction with
  | nil =>
      refine ⟨fun usage after trees hok => ?_, fun usage after hok => ?_⟩
      · rw [trimLooseAll] at hok
        cases hok
        exact Nat.le_refl _
      · rw [countLoose] at hok
        cases hok
        exact Nat.le_refl _
  | cons label children rest ihChildren ihRest =>
      have htree : ∀ usage after trees,
          trimLoose policy usage (.node label children) = .ok (trees, after) →
            measure.of usage + countNames counted trees ≤ measure.of after := by
        intro usage after trees hok
        cases trimmed_of_trimLoose hok with
        | other hother hbelow =>
            have hle := ihChildren.1 _ _ _ hbelow
            rw [countNames_node, hother]
            exact hle
        | remove helement htreatment => exact Nat.le_refl _
        | unwrap helement htreatment hbelow => exact ihChildren.1 _ _ _ hbelow
        | keep helement htreatment hattributes hstyle hbelow =>
            have hle := ihChildren.1 _ _ _ hbelow
            rw [measure.of_keep htreatment] at hle
            rw [countNames_element helement]
            omega
        | sheet helement htreatment hattributes hstyle htext hloose =>
            have hle := ihChildren.2 _ _ hloose
            rw [measure.of_keep htreatment] at hle
            rw [countNames_element helement, countNames_ofText]
            omega
        | blank helement htreatment hattributes hstyle htext =>
            rw [measure.of_keep htreatment, countNames_nil]
            omega
      refine ⟨fun usage after trees hok => ?_, fun usage after hok => ?_⟩
      · obtain ⟨front, middle, back, hfirst, hsecond, rfl⟩ := exists_of_trimLooseAll_cons hok
        have hfront := htree _ _ _ hfirst
        have hback := ihRest.1 _ _ _ hsecond
        rw [countNames_append]
        omega
      · rw [countLoose] at hok
        split at hok
        next =>
          obtain ⟨⟨trees, middle⟩, hfirst, hsecond⟩ := Fault.exists_of_bind_eq_ok hok
          have hfront := htree _ _ _ hfirst
          have hback := ihRest.2 _ _ hsecond
          omega
        next => exact ihRest.2 _ _ hok

theorem countNames_le_tree {tree : Tree}
    (hok : trimLoose policy usage tree = .ok (trees, after)) :
    measure.of usage + countNames counted trees ≤ measure.of after := by
  have hsingle : trimLooseAll policy usage [tree] = .ok (trees, after) := by
    simp only [trimLooseAll, hok, Fault.ok_bind, List.append_nil]
    rfl
  exact (measure.countNames_le [tree]).1 usage after trees hsingle

end Measure

end Tree

end Winnow
