import Mathlib.Algebra.BigOperators.Group.Finset.Basic
import Mathlib.Algebra.Order.BigOperators.Group.Finset
import Winnow.Proofs.Assoc
import Winnow.Trimming

/-!
# Budgets and tallies

The total budget of a policy bounds the sum of the budgets that its tags have. A
tally is sound if it counts no more of a tag than its budget and if its total is
what it counts. Then a saturated tally has used up every budget, so that the
choice made for an element does not depend on the note of saturation.
-/

namespace Winnow

namespace Policy

variable (policy : Policy)

/-- The tags whose budgets count toward the total. -/
def countedTags : Finset String :=
  policy.tagBudget.names.toFinset.filter fun tag => isStructural tag = false

/-- The total of a list of budgets. -/
def sumBudgets : Assoc Nat → Nat
  | [] => 0
  | entry :: rest => (if isStructural entry.1 then 0 else entry.2) + sumBudgets rest

theorem totalBudget_eq_sumBudgets : policy.totalBudget = sumBudgets policy.tagBudget := by
  have hfold : ∀ (table : Assoc Nat) (start : Nat),
      List.foldl (fun total (entry : String × Nat) =>
        if isStructural entry.1 then total else total + entry.2) start table =
      start + sumBudgets table := by
    intro table
    induction table with
    | nil => intro start; rfl
    | cons entry rest ih =>
        intro start
        rw [List.foldl_cons, ih, sumBudgets]
        split
        · omega
        · omega
  have htotal := hfold policy.tagBudget 0
  rwa [Nat.zero_add] at htotal

/-- Each tag has one budget, so that the budgets of distinct tags are within the total. -/
theorem sum_budget_le_sumBudgets (table : Assoc Nat) :
    ∑ tag ∈ table.names.toFinset.filter (fun tag => isStructural tag = false),
      (table.find? tag).getD 0 ≤ sumBudgets table := by
  induction table with
  | nil => simp [Assoc.names]
  | cons entry rest ih =>
      obtain ⟨name, budget⟩ := entry
      have hnames : (Assoc.names ((name, budget) :: rest)).toFinset =
          insert name (Assoc.names rest).toFinset := by
        simp [Assoc.names]
      have hother : ∀ tag, tag ≠ name →
          Assoc.find? ((name, budget) :: rest) tag = Assoc.find? rest tag := by
        intro tag hne
        rw [Assoc.find?_cons, if_neg (Ne.symm hne)]
      rw [hnames, Finset.filter_insert, sumBudgets]
      cases hstructural : isStructural name with
      | true =>
          simp only [Bool.true_eq_false, if_false, if_true, Nat.zero_add]
          refine (Finset.sum_congr rfl ?_).trans_le ih
          intro tag htag
          rw [hother tag]
          rintro rfl
          rw [(Finset.mem_filter.mp htag).2] at hstructural
          cases hstructural
      | false =>
          simp only [Bool.false_eq_true, if_false, if_true]
          have hself : Assoc.find? ((name, budget) :: rest) name = some budget := by
            rw [Assoc.find?_cons, if_pos rfl]
          rw [← Finset.add_sum_erase _ _ (Finset.mem_insert_self name _),
            Finset.erase_insert_eq_erase, hself]
          refine Nat.add_le_add_left ?_ budget
          calc ∑ tag ∈ Finset.erase _ name, (Assoc.find? ((name, budget) :: rest) tag).getD 0
              = ∑ tag ∈ Finset.erase _ name, (Assoc.find? rest tag).getD 0 :=
                Finset.sum_congr rfl fun tag htag => by
                  rw [hother tag (Finset.mem_erase.mp htag).1]
            _ ≤ _ := Finset.sum_le_sum_of_subset (Finset.erase_subset _ _)
            _ ≤ sumBudgets rest := ih

theorem sum_budgetFor_le : ∑ tag ∈ policy.countedTags, policy.budgetFor tag ≤
    policy.totalBudget := by
  rw [totalBudget_eq_sumBudgets]
  exact sum_budget_le_sumBudgets policy.tagBudget

theorem mem_countedTags {tag : String} (hstructural : isStructural tag = false)
    (hbudget : 0 < policy.budgetFor tag) : tag ∈ policy.countedTags := by
  refine Finset.mem_filter.mpr ⟨List.mem_toFinset.mpr ?_, hstructural⟩
  cases hfind : policy.tagBudget.find? tag with
  | none =>
      rw [budgetFor, hfind] at hbudget
      cases hbudget
  | some budget => exact Assoc.mem_names_of_find? hfind

theorem effectiveBudget_le (tag : String) : policy.effectiveBudget tag ≤ policy.budgetFor tag := by
  unfold effectiveBudget
  split
  · exact Nat.zero_le _
  · exact Nat.le_refl _

end Policy

namespace Tally

/-- What a tally has counted, without the note of saturation. -/
def usage (tally : Tally) : Usage := { used := tally.used, total := tally.total }

theorem count_usage (tally : Tally) (tag : String) : tally.usage.count tag = tally.count tag := rfl

theorem count_add_settle (tally : Tally) (tag other : String) (total : Nat) :
    ((tally.add tag).settle total).count other =
      if other = tag then tally.count tag + 1 else tally.count other := by
  unfold settle add count
  dsimp only
  rw [Assoc.find?_put]
  split
  · rfl
  · rfl

/-- The tally a pass starts with. -/
def start (policy : Policy) : Tally := { saturated := decide (policy.totalBudget = 0) }

/-- A tally that counts within the budgets and adds up. -/
structure Sound (policy : Policy) (tally : Tally) : Prop where
  within : ∀ tag, isStructural tag = false → tally.count tag ≤ policy.budgetFor tag
  total_eq : tally.total = ∑ tag ∈ policy.countedTags, tally.count tag
  saturated_eq : tally.saturated = decide (policy.totalBudget ≤ tally.total)

variable {policy : Policy} {tally : Tally}

theorem sound_start (policy : Policy) : (start policy).Sound policy where
  within _ _ := Nat.zero_le _
  total_eq := (Finset.sum_eq_zero fun _ _ => rfl).symm
  saturated_eq := by simp [start]

namespace Sound

theorem add_settle (hsound : tally.Sound policy) {tag : String}
    (hstructural : isStructural tag = false) (hleft : tally.count tag < policy.budgetFor tag) :
    ((tally.add tag).settle policy.totalBudget).Sound policy where
  within other hother := by
    rw [count_add_settle]
    split
    next heq => rw [heq]; exact hleft
    next => exact hsound.within other hother
  total_eq := by
    have hmem := policy.mem_countedTags hstructural (Nat.zero_lt_of_lt hleft)
    have hrest : ∑ other ∈ policy.countedTags.erase tag,
        ((tally.add tag).settle policy.totalBudget).count other =
        ∑ other ∈ policy.countedTags.erase tag, tally.count other := by
      refine Finset.sum_congr rfl fun other hother => ?_
      rw [count_add_settle, if_neg (Finset.mem_erase.mp hother).1]
    rw [← Finset.add_sum_erase _ _ hmem, hrest, count_add_settle, if_pos rfl]
    have htotal := hsound.total_eq
    rw [← Finset.add_sum_erase _ _ hmem] at htotal
    change tally.total + 1 = _
    omega
  saturated_eq := by
    change (tally.saturated || decide (policy.totalBudget ≤ tally.total + 1)) =
      decide (policy.totalBudget ≤ tally.total + 1)
    rw [hsound.saturated_eq, Bool.or_eq_right_iff_imp]
    simp only [decide_eq_true_eq]
    omega

/-- A saturated tally has used up every budget. -/
theorem budgetFor_le_count (hsound : tally.Sound policy) (hsaturated : tally.saturated = true)
    {tag : String} (hstructural : isStructural tag = false) :
    policy.budgetFor tag ≤ tally.count tag := by
  by_contra hlt
  rw [Nat.not_le] at hlt
  have hmem := policy.mem_countedTags hstructural (Nat.zero_lt_of_lt hlt)
  have hless : ∑ other ∈ policy.countedTags, tally.count other <
      ∑ other ∈ policy.countedTags, policy.budgetFor other :=
    Finset.sum_lt_sum
      (fun other hother => hsound.within other (Finset.mem_filter.mp hother).2) ⟨tag, hmem, hlt⟩
  have hfull : policy.totalBudget ≤ tally.total := by
    have hnote := hsound.saturated_eq
    rw [hsaturated] at hnote
    exact of_decide_eq_true hnote.symm
  have htotal := hsound.total_eq
  have hbound := policy.sum_budgetFor_le
  omega

end Sound

end Tally

end Winnow
