import Winnow.Proofs.Enforcement.Guarantee

/-!
# The balance of a pass

A pass counts each element that it keeps once, under its name and in the total, and never beyond
a budget. So the counts add up to the total at every moment, the total is within the total budget,
and it reaches the total budget only when every single budget is used up.
-/

namespace Winnow

/-! ## Sums of counts -/

/-- The sum of the counts of a table. -/
def Assoc.sum : Assoc Nat → Nat
  | [] => 0
  | entry :: rest => entry.2 + sum rest

/-- One more under a name is one more in the sum. -/
theorem Assoc.sum_put (table : Assoc Nat) (name : String) :
    sum (put name ((find? table name).getD 0 + 1) table) = sum table + 1 := by
  induction table with
  | nil => rfl
  | cons entry rest ih =>
      rw [find?_cons, put]
      split
      next =>
        rw [sum, sum, Option.getD_some]
        exact Nat.add_right_comm entry.2 1 _
      next => rw [sum, ih, sum, Nat.add_assoc]

namespace Tally

variable {policy : Policy} {tally : Tally}

/-- A sound tally that counts only outside the structure of a document, each name in one place,
and whose counts add up to its total. -/
structure Booked (policy : Policy) (tally : Tally) : Prop extends tally.Sound policy where
  names : ∀ tag ∈ tally.used.names, isStructural tag = false
  nodup : tally.used.names.Nodup
  sum_eq : tally.total = tally.used.sum

theorem booked_start (policy : Policy) : (start policy).Booked policy where
  toSound := sound_start policy
  names _ hmem := by cases hmem
  nodup := List.nodup_nil
  sum_eq := rfl

namespace Booked

variable (hbooked : tally.Booked policy)
include hbooked

/-- Keeping an element that the treatment lets stay makes one entry in the books at most. -/
theorem keep {tag : String} {counted : Bool}
    (hkeep : policy.treatment tally.usage tag = .keep counted) :
    (tally.keep policy tag counted).Booked policy := by
  obtain ⟨-, ⟨rfl, -⟩ | ⟨rfl, hstructural, -⟩⟩ := Policy.of_treatment_eq_keep hkeep
  · exact hbooked
  · refine ⟨hbooked.toSound.keep hkeep, fun other hmem => ?_,
      Assoc.nodup_names_put hbooked.nodup tag _, ?_⟩
    · change other ∈ (tally.used.put tag (tally.count tag + 1)).names at hmem
      rw [Assoc.names_put] at hmem
      split at hmem
      next => exact hbooked.names other hmem
      next =>
        rcases List.mem_append.mp hmem with hold | hnew
        · exact hbooked.names other hold
        · rwa [List.mem_singleton.mp hnew]
    · change tally.total + 1 = (tally.used.put tag (tally.count tag + 1)).sum
      rw [count, Assoc.sum_put, hbooked.sum_eq]

/-- The books stay in order when an element is visited. -/
theorem visit {store after : Store} {handle : Handle} {reached : Tally}
    (hok : store.visit policy tally handle = .ok (after, reached)) : reached.Booked policy := by
  unfold Store.visit at hok
  split at hok
  next =>
    rw [Store.visitConnected_eq store hbooked.toSound] at hok
    cases htreatment : policy.treatment tally.usage (Text.lower (store.label handle).tag) with
    | remove =>
        rw [htreatment] at hok
        cases hok
        exact hbooked
    | unwrap =>
        rw [htreatment] at hok
        cases hok
        exact hbooked
    | keep counted =>
        rw [htreatment] at hok
        obtain ⟨kept, -, hresult⟩ := Fault.exists_of_bind_eq_ok hok
        cases hresult
        exact hbooked.keep htreatment
  next =>
    cases hok
    exact hbooked

/-- The books stay in order when elements are visited one after the other. -/
theorem visitAll {handles : List Handle} {store after : Store} {reached : Tally}
    (hok : Store.visitAll policy handles store tally = .ok (after, reached)) :
    reached.Booked policy := by
  induction handles generalizing store tally with
  | nil =>
      cases hok
      exact hbooked
  | cons handle rest ih =>
      rw [Store.visitAll] at hok
      split at hok
      next middle noted hvisit => exact ih (hbooked.visit hvisit) hok
      next => cases hok

end Booked

/-- What the counts, the total and the note of saturation say of each other and of the budgets. -/
structure Balanced (policy : Policy) (tally : Tally) : Prop where
  total_eq : tally.total = tally.used.sum
  nodup : tally.used.names.Nodup
  within : ∀ entry ∈ tally.used,
    isStructural entry.1 = false ∧ entry.2 ≤ policy.budgetFor entry.1
  total_le : tally.total ≤ policy.totalBudget
  saturated_iff : tally.saturated = true ↔ tally.total = policy.totalBudget
  spent : tally.total = policy.totalBudget → ∀ tag ∈ policy.tagBudget.names,
    isStructural tag = false → tally.count tag = policy.budgetFor tag

/-- Within every budget, the total is within the sum of the budgets. -/
theorem Sound.total_le (hsound : tally.Sound policy) : tally.total ≤ policy.totalBudget := by
  calc tally.total
      = ∑ tag ∈ policy.countedTags, tally.count tag := hsound.total_eq
    _ ≤ ∑ tag ∈ policy.countedTags, policy.budgetFor tag :=
        Finset.sum_le_sum fun tag hmem => hsound.within tag (Finset.mem_filter.mp hmem).2
    _ ≤ policy.totalBudget := policy.sum_budgetFor_le

theorem Booked.balanced (hbooked : tally.Booked policy) : tally.Balanced policy := by
  have hle := hbooked.toSound.total_le
  have hsaturated : tally.saturated = true ↔ tally.total = policy.totalBudget := by
    rw [hbooked.saturated_eq, decide_eq_true_iff]
    exact ⟨hle.antisymm, Nat.le_of_eq ∘ Eq.symm⟩
  refine ⟨hbooked.sum_eq, hbooked.nodup, fun entry hmem => ?_, hle, hsaturated, ?_⟩
  · have hstructural := hbooked.names entry.1 (List.mem_map_of_mem hmem)
    have hwithin := hbooked.within entry.1 hstructural
    rw [count, Assoc.find?_of_mem hbooked.nodup hmem] at hwithin
    exact ⟨hstructural, hwithin⟩
  -- Full books are saturated ones, and those leave nothing of any budget.
  · intro hfull tag _ hstructural
    exact (hbooked.within tag hstructural).antisymm
      (hbooked.toSound.budgetFor_le_count (hsaturated.mpr hfull) hstructural)

end Tally

namespace Store

variable {policy : Policy} {store after : Store} {root : Handle} {tally : Tally}

/-- At the start of a pass and after each of the elements that it lists, the tally that the pass
goes on with is balanced. Structural names, names that are never kept and names in another case
may have budgets too. -/
theorem balanced_throughout {visited rest : List Handle}
    (hlisted : store.elements root = visited ++ rest)
    (hvisited : visitAll policy visited store { saturated := decide (policy.totalBudget = 0) } =
      .ok (after, tally)) :
    tally.Balanced policy ∧ store.enforce policy root = visitAll policy rest after tally := by
  refine ⟨((Tally.booked_start policy).visitAll hvisited).balanced, ?_⟩
  rw [enforce, hlisted, visitAll_append, hvisited, Fault.ok_bind]

/-- Budgets for one paragraph, and for names that count nothing. -/
def oneParagraph : Policy :=
  { tagBudget := [("html", 2), ("p", 1), ("script", 0), ("DIV", 0)] }

/-- The first of two paragraphs uses up the budgets, and the second is still to be visited. -/
theorem balanced_throughout_paragraphs :
    (ofTree paragraphs).elements 0 = [1, 2] ++ [3] ∧
      ∃ after tally, visitAll oneParagraph [1, 2] (ofTree paragraphs)
          { saturated := decide (oneParagraph.totalBudget = 0) } = .ok (after, tally) ∧
        tally = { used := [("p", 1)], total := 1, saturated := true } ∧
        (ofTree paragraphs).enforce oneParagraph 0 = visitAll oneParagraph [3] after tally := by
  have hlisted : (ofTree paragraphs).elements 0 = [1, 2] ++ [3] := by decide +kernel
  have htally : (visitAll oneParagraph [1, 2] (ofTree paragraphs)
      { saturated := decide (oneParagraph.totalBudget = 0) }).map (·.2) =
        .ok { used := [("p", 1)], total := 1, saturated := true } := by decide +kernel
  refine ⟨hlisted, ?_⟩
  cases hvisited : visitAll oneParagraph [1, 2] (ofTree paragraphs)
      { saturated := decide (oneParagraph.totalBudget = 0) } with
  | error fault =>
      rw [hvisited] at htally
      cases htally
  | ok reached =>
      rw [hvisited] at htally
      exact ⟨reached.1, reached.2, rfl, Except.ok.inj htally,
        (balanced_throughout hlisted hvisited).2⟩

end Store

end Winnow
