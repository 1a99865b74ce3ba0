import Winnow.Proofs.Enforcement.Budget
import Winnow.Proofs.Store.Forest

/-!
# Visits

What a visit does to a connected element depends on its name and on what has
been used: it is one of the three treatments. The note of saturation makes no
difference to a sound tally. An element that is not connected is passed over.

A pass and a plain recursion agree if they fail alike, or if both end with the
same usage and with results that are related.
-/

namespace Winnow

namespace Policy

variable {policy : Policy}

/-- What a label that stays under a policy was before, and what has been granted to it. -/
inductive Keeps (policy : Policy) : Label → Label → Prop
  | other (label : Label) (hother : label.isElement = false) : Keeps policy label label
  | element (label : Label) (attributes : Attributes) (helement : label.isElement = true)
      (hallowed : policy.forbids (Text.lower label.tag) = false)
      (hbudget : isStructural (Text.lower label.tag) = true ∨
        0 < policy.effectiveBudget (Text.lower label.tag))
      (hattributes : policy.filterAttributes (Text.lower label.tag) label.attributes =
        .ok attributes) :
      Keeps policy label { label with attributes := attributes }

/-- An element is kept only if nothing forbids it. It is structural and does not count, or
its budget is not used up and it does. -/
theorem of_treatment_eq_keep {usage : Usage} {tag : String} {counted : Bool}
    (hkeep : policy.treatment usage tag = .keep counted) :
    policy.forbids tag = false ∧
      (counted = false ∧ isStructural tag = true ∨
        counted = true ∧ isStructural tag = false ∧
          usage.count tag < policy.effectiveBudget tag) := by
  unfold treatment at hkeep
  split at hkeep
  next => cases hkeep
  next hforbids =>
    refine ⟨by simpa using hforbids, ?_⟩
    split at hkeep
    next hstructural =>
      cases hkeep
      exact Or.inl ⟨rfl, hstructural⟩
    next hstructural =>
      split at hkeep
      next => cases hkeep
      next =>
        split at hkeep
        next => cases hkeep
        next hleft =>
          cases hkeep
          exact Or.inr ⟨rfl, by simpa using hstructural, Nat.lt_of_not_le hleft⟩

end Policy

namespace Tally

variable {policy : Policy} {tally : Tally}

/-- The tally after an element that counts or does not. -/
def keep (tally : Tally) (policy : Policy) (tag : String) (counted : Bool) : Tally :=
  if counted then (tally.add tag).settle policy.totalBudget else tally

theorem usage_keep (tag : String) (counted : Bool) :
    (tally.keep policy tag counted).usage =
      if counted then tally.usage.add tag else tally.usage := by
  cases counted with
  | false => rfl
  | true => rfl

/-- A sound tally stays sound when an element is kept that the treatment lets stay. -/
theorem Sound.keep (hsound : tally.Sound policy) {tag : String} {counted : Bool}
    (hkeep : policy.treatment tally.usage tag = .keep counted) :
    (tally.keep policy tag counted).Sound policy := by
  obtain ⟨-, ⟨rfl, -⟩ | ⟨rfl, hstructural, hleft⟩⟩ := Policy.of_treatment_eq_keep hkeep
  · exact hsound
  · exact hsound.add_settle hstructural (hleft.trans_le (policy.effectiveBudget_le tag))

end Tally

namespace Store

variable {policy : Policy}

/-- A visit of a connected element is the treatment that its name gets. -/
theorem visitConnected_eq (store : Store) {tally : Tally} (hsound : tally.Sound policy)
    (handle : Handle) :
    store.visitConnected policy tally handle =
      match policy.treatment tally.usage (Text.lower (store.label handle).tag) with
      | .remove => .ok (store.detach handle, tally)
      | .unwrap => .ok ((store.unwrap handle).1, tally)
      | .keep counted => do
        let after ← store.keepElement policy (Text.lower (store.label handle).tag) handle
        return (after, tally.keep policy (Text.lower (store.label handle).tag) counted) := by
  unfold visitConnected Policy.treatment
  dsimp only
  generalize Text.lower (store.label handle).tag = tag
  cases policy.forbids tag with
  | true => rfl
  | false =>
      cases hstructural : isStructural tag with
      | true => rfl
      | false =>
          simp only [Bool.false_eq_true, if_false]
          by_cases hzero : policy.effectiveBudget tag = 0
          · rw [if_pos hzero, if_pos hzero]
            rfl
          · rw [if_neg hzero, if_neg hzero, Tally.count_usage]
            -- A saturated tally has reached every budget, so the note adds nothing to the test.
            have hspent : (tally.saturated || decide (policy.effectiveBudget tag ≤
                tally.count tag)) = decide (policy.effectiveBudget tag ≤ tally.count tag) := by
              rw [Bool.or_eq_right_iff_imp]
              intro hsaturated
              exact decide_eq_true ((policy.effectiveBudget_le tag).trans
                (hsound.budgetFor_le_count hsaturated hstructural))
            rw [hspent]
            by_cases hused : policy.effectiveBudget tag ≤ tally.count tag
            · simp only [hused, decide_true, if_true]
              rfl
            · simp only [hused, decide_false, Bool.false_eq_true, if_false]
              rfl

/-! ## Runs over listed elements -/

theorem visitAll_append (front back : List Handle) (store : Store) (tally : Tally) :
    visitAll policy (front ++ back) store tally =
      visitAll policy front store tally >>= fun reached =>
        visitAll policy back reached.1 reached.2 := by
  induction front generalizing store tally with
  | nil => rfl
  | cons handle rest ih =>
      rw [List.cons_append, visitAll, visitAll]
      cases store.visit policy tally handle with
      | error fault => rfl
      | ok reached => exact ih reached.1 reached.2

theorem visitAll_cons_connected {store : Store} {handle : Handle}
    (hconnected : store.isConnected handle = true) (rest : List Handle) (tally : Tally) :
    visitAll policy (handle :: rest) store tally =
      store.visitConnected policy tally handle >>= fun reached =>
        visitAll policy rest reached.1 reached.2 := by
  rw [visitAll, visit, if_pos hconnected]
  cases store.visitConnected policy tally handle with
  | error fault => rfl
  | ok reached => rfl

/-- Elements that are not connected change nothing. -/
theorem visitAll_disconnected {store : Store} {handles : List Handle}
    (hloose : ∀ handle ∈ handles, store.isConnected handle = false) (tally : Tally) :
    visitAll policy handles store tally = .ok (store, tally) := by
  induction handles with
  | nil => rfl
  | cons handle rest ih =>
      rw [visitAll, visit, hloose handle List.mem_cons_self]
      exact ih fun other hother => hloose other (List.mem_cons_of_mem _ hother)

end Store

/-! ## Agreement -/

/-- A pass and a recursion fail alike, or end with the same usage and related results. -/
inductive Agree {α : Type} (policy : Policy) (related : Store → α → Prop) :
    Except Fault (Store × Tally) → Except Fault (α × Usage) → Prop
  | fault (fault : Fault) : Agree policy related (.error fault) (.error fault)
  | done {store : Store} {tally : Tally} {result : α} (hsound : tally.Sound policy)
      (hrelated : related store result) :
      Agree policy related (.ok (store, tally)) (.ok (result, tally.usage))

namespace Agree

variable {α β : Type} {policy : Policy} {related : Store → α → Prop} {wanted : Store → β → Prop}

/-- Agreement goes on if the two continuations agree wherever it can have led. -/
theorem bind {pass : Except Fault (Store × Tally)} {plain : Except Fault (α × Usage)}
    {next : Store × Tally → Except Fault (Store × Tally)}
    {plainNext : α × Usage → Except Fault (β × Usage)} (hagree : Agree policy related pass plain)
    (hnext : ∀ store tally result, tally.Sound policy → related store result →
      Agree policy wanted (next (store, tally)) (plainNext (result, tally.usage))) :
    Agree policy wanted (pass >>= next) (plain >>= plainNext) := by
  cases hagree with
  | fault fault => exact .fault fault
  | done hsound hrelated => exact hnext _ _ _ hsound hrelated

theorem mono {pass : Except Fault (Store × Tally)} {plain : Except Fault (α × Usage)}
    {weaker : Store → α → Prop} (hagree : Agree policy related pass plain)
    (hweaker : ∀ store result, related store result → weaker store result) :
    Agree policy weaker pass plain := by
  cases hagree with
  | fault fault => exact .fault fault
  | done hsound hrelated => exact .done hsound (hweaker _ _ hrelated)

/-- The recursion may put its result into another form. -/
theorem map {pass : Except Fault (Store × Tally)} {plain : Except Fault (α × Usage)}
    {form : α × Usage → Except Fault (β × Usage)} (hagree : Agree policy related pass plain)
    (hform : ∀ store usage result, related store result →
      ∃ formed, form (result, usage) = .ok (formed, usage) ∧ wanted store formed) :
    Agree policy wanted pass (plain >>= form) := by
  cases hagree with
  | fault fault => exact .fault fault
  | @done store tally result hsound hrelated =>
      obtain ⟨formed, hresult, hwanted⟩ := hform store tally.usage result hrelated
      rw [show (Except.ok (result, tally.usage) >>= form) = form (result, tally.usage) from rfl,
        hresult]
      exact .done hsound hwanted

end Agree

end Winnow
