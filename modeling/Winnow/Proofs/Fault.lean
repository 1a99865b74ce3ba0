import Winnow.Fault

/-!
# Steps that may fail

A chain of steps succeeds only if its first step does, and fails with the fault
of the first step that fails.
-/

namespace Winnow.Fault

variable {α β : Type}

theorem ok_bind (value : α) (next : α → Except Fault β) :
    (Except.ok value >>= next) = next value := rfl

/-- A chain that succeeds has a first step that succeeds. -/
theorem exists_of_bind_eq_ok {first : Except Fault α} {next : α → Except Fault β} {result : β}
    (hok : first >>= next = .ok result) :
    ∃ value, first = .ok value ∧ next value = .ok result := by
  cases first with
  | error fault => cases hok
  | ok value => exact ⟨value, rfl, hok⟩

/-- Where something is known of a result, there is a result. -/
theorem exists_of_map_eq_ok {first : Except Fault α} {f : α → β} {result : β}
    (hok : first.map f = .ok result) : ∃ value, first = .ok value ∧ f value = result := by
  cases first with
  | error fault => cases hok
  | ok value => exact ⟨value, rfl, Except.ok.inj hok⟩

/-- Is this the only fault with which an attempt fails? -/
structure IsOnly (expected : Fault) (attempt : Except Fault α) : Prop where
  eq_of_error : ∀ {fault : Fault}, attempt = .error fault → fault = expected

namespace IsOnly

variable {expected : Fault}

theorem ok (value : α) : expected.IsOnly (.ok value : Except Fault α) :=
  ⟨fun herror => by cases herror⟩

theorem error : expected.IsOnly (.error expected : Except Fault α) :=
  ⟨fun herror => (Except.error.inj herror).symm⟩

/-- A chain fails with what its steps fail with. -/
theorem bind {first : Except Fault α} {next : α → Except Fault β}
    (hfirst : expected.IsOnly first) (hnext : ∀ value, expected.IsOnly (next value)) :
    expected.IsOnly (first >>= next) := by
  cases first with
  | error fault =>
      obtain rfl := hfirst.eq_of_error rfl
      exact .error
  | ok value => exact hnext value

end IsOnly

end Winnow.Fault
