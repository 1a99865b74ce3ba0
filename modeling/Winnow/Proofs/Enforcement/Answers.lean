import Winnow.Enforcement

/-!
# What a pass asks of a policy

A pass over a document asks a policy which elements it forbids, what the budgets are, what becomes
of an attribute and what stays of a style sheet. Two policies that give the same answers leave the
same of every document, whatever else there is in which they differ.
-/

namespace Winnow.Policy

/-- Do two policies give a pass the same answers? -/
structure Answers (policy other : Policy) : Prop where
  forbids : ∀ tag, policy.forbids tag = other.forbids tag
  effectiveBudget : ∀ tag, policy.effectiveBudget tag = other.effectiveBudget tag
  totalBudget : policy.totalBudget = other.totalBudget
  judge : ∀ tag name value, policy.judge tag name value = other.judge tag name value
  filterStyleText : ∀ text, policy.filterStyleText text = other.filterStyleText text

namespace Answers

variable {policy other : Policy} (hanswers : policy.Answers other)
include hanswers

theorem filterAttributes (tag : String) (attributes : Attributes) :
    policy.filterAttributes tag attributes = other.filterAttributes tag attributes := by
  induction attributes with
  | nil => rfl
  | cons entry rest ih =>
      rw [Policy.filterAttributes, Policy.filterAttributes, hanswers.judge, ih]

theorem keepElement (store : Store) (tag : String) (handle : Handle) :
    store.keepElement policy tag handle = store.keepElement other tag handle := by
  unfold Store.keepElement Store.filterStyle
  simp only [hanswers.filterAttributes, hanswers.filterStyleText]

theorem visit (store : Store) (tally : Tally) (handle : Handle) :
    store.visit policy tally handle = store.visit other tally handle := by
  unfold Store.visit Store.visitConnected
  simp only [hanswers.forbids, hanswers.keepElement, hanswers.effectiveBudget,
    hanswers.totalBudget]

theorem visitAll (handles : List Handle) (store : Store) (tally : Tally) :
    Store.visitAll policy handles store tally = Store.visitAll other handles store tally := by
  induction handles generalizing store tally with
  | nil => rfl
  | cons handle rest ih =>
      rw [Store.visitAll, Store.visitAll, hanswers.visit]
      split
      · exact ih _ _
      · rfl

/-- Both policies leave the same of a document, with the same tally. -/
theorem enforce (document : Tree) : document.enforce policy = document.enforce other := by
  unfold Tree.enforce Store.enforce
  rw [hanswers.visitAll, hanswers.totalBudget]

end Answers

end Winnow.Policy
