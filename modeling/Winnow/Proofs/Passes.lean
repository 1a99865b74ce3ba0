import Mathlib.Control.Monad.Basic
import Mathlib.Tactic.IntervalCases
import Winnow.Proofs.Fault
import Winnow.Sanitize

/-!
# Repeated passes

Stopping at the first pass that changes nothing makes no difference to the
result: it is that of all the passes up to the ceiling. Where the passes have
come to rest below the ceiling, more of them change nothing. They do not always
come to rest: preformatted text is written without the line feed that each
reading takes off its start, so that every pass leaves less of it, and a text
with enough line ends is still shrinking when the ceiling is reached.
-/

namespace Winnow.Policy

variable {policy : Policy}

/-- The text after so many passes, whether they change something or not. -/
def afterPasses (policy : Policy) : Nat → String → Except Fault String
  | 0, html => .ok html
  | more + 1, html => do
    let pass ← policy.pass html
    policy.afterPasses more pass.output

theorem afterPasses_add (first second : Nat) (html : String) :
    policy.afterPasses (first + second) html =
      policy.afterPasses first html >>= policy.afterPasses second := by
  induction first generalizing html with
  | zero => rw [Nat.zero_add, afterPasses, Fault.ok_bind]
  | succ first ih =>
      rw [Nat.succ_add, afterPasses, afterPasses, bind_assoc]
      simp only [ih]

/-- A text that one pass leaves as it is stays under any number of passes. -/
theorem afterPasses_of_fixed {html : String} (hfixed : policy.afterPasses 1 html = .ok html)
    (count : Nat) : policy.afterPasses count html = .ok html := by
  induction count with
  | zero => rfl
  | succ count ih => rw [Nat.add_comm, afterPasses_add, hfixed, Fault.ok_bind, ih]

theorem afterPasses_one {html : String} {pass : Pass} (hpass : policy.pass html = .ok pass) :
    policy.afterPasses 1 html = .ok pass.output := by
  rw [afterPasses, hpass, Fault.ok_bind, afterPasses]

theorem result_cons (pass : Pass) (history : History) (html : String) :
    History.result { history with passes := pass :: history.passes } html =
      history.result pass.output := by
  unfold History.result
  cases hpasses : history.passes with
  | nil => rfl
  | cons first rest =>
      rw [List.getLast?_cons_cons, List.getLast?_eq_some_getLast (List.cons_ne_nil first rest)]

/-- The early stop does not change the result of a run of passes. -/
theorem result_passes (policy : Policy) (ceiling : Nat) (html : String) :
    (policy.passes ceiling html).map (fun history => history.result html) =
      policy.afterPasses ceiling html := by
  induction ceiling generalizing html with
  | zero => rfl
  | succ more ih =>
      rw [passes, afterPasses]
      cases hpass : policy.pass html with
      | error fault => rfl
      | ok pass =>
          rw [Fault.ok_bind, Fault.ok_bind]
          split
          next hstop =>
            have hfixed := afterPasses_one hpass
            rw [hstop] at hfixed
            rw [hstop, afterPasses_of_fixed hfixed]
            change Except.ok pass.output = _
            rw [hstop]
          next =>
            rw [← ih pass.output]
            cases policy.passes more pass.output with
            | error fault => rfl
            | ok history => exact congrArg Except.ok (result_cons pass history html)

theorem sanitize_eq_afterPasses (policy : Policy) (html : String) :
    policy.sanitize html = policy.afterPasses policy.config.maxPasses html := by
  rw [← result_passes, sanitize, history]
  cases policy.passes policy.config.maxPasses html with
  | error fault => rfl
  | ok history => rfl

/-- Only what single passes give matters. -/
theorem passes_congr {other : Policy} (hpass : ∀ html, policy.pass html = other.pass html)
    (ceiling : Nat) (html : String) : policy.passes ceiling html = other.passes ceiling html := by
  induction ceiling generalizing html with
  | zero => rfl
  | succ ceiling ih => simp only [passes, hpass, ih]

/-- Passes that have come to rest below the ceiling stay at rest above it. -/
theorem afterPasses_of_rest {html text : String} {count ceiling : Nat}
    (hreached : policy.afterPasses count html = .ok text)
    (hrest : policy.afterPasses (count + 1) html = .ok text) (hle : count ≤ ceiling) :
    policy.afterPasses ceiling html = .ok text := by
  obtain ⟨more, rfl⟩ := Nat.exists_eq_add_of_le hle
  rw [afterPasses_add, hreached, Fault.ok_bind] at hrest ⊢
  exact afterPasses_of_fixed hrest more

end Winnow.Policy

namespace Winnow

/-- Rules that admit some elements, as untyped values. -/
def elementRules (names : List String) : Value := .list (names.map .text)

/-- Scripting is allowed, and there is one pass. -/
def singlePass : Value :=
  .mapping [("allowJavaScript", .bool true), ("maxPasses", .int 1)]

/-- A page of preformatted text that consists of line ends. -/
def preformattedPage (lineEnds : Nat) : String :=
  "<html><head></head><body><pre>" ++ String.ofList (List.replicate lineEnds '\n') ++
    "</pre></body></html>"

section Preformatted

variable {policy : Policy}

/-- A pass reads the page twice, and each reading drops the line end that the element starts
with. -/
theorem afterPasses_preformattedPage
    (hcompile : Policy.compile (elementRules ["pre"]) .null = .ok policy) (pairs : Nat)
    (hlt : pairs < 11) :
    policy.afterPasses 1 (preformattedPage (2 * (pairs + 1))) =
      .ok (preformattedPage (2 * pairs)) := by
  have hpass : (Policy.compile (elementRules ["pre"]) .null >>= fun policy =>
      policy.afterPasses 1 (preformattedPage (2 * (pairs + 1)))) =
        .ok (preformattedPage (2 * pairs)) := by
    interval_cases pairs <;> decide +kernel
  rwa [hcompile, Fault.ok_bind] at hpass

/-- So many passes leave so many pairs of line ends fewer. -/
theorem afterPasses_preformattedPage_add
    (hcompile : Policy.compile (elementRules ["pre"]) .null = .ok policy) (count pairs : Nat)
    (hle : pairs + count ≤ 11) :
    policy.afterPasses count (preformattedPage (2 * (pairs + count))) =
      .ok (preformattedPage (2 * pairs)) := by
  induction count with
  | zero => rfl
  | succ count ih =>
      rw [Nat.add_comm count 1, Policy.afterPasses_add, Nat.add_comm 1 count, ← Nat.add_assoc,
        afterPasses_preformattedPage hcompile _ (by omega), Fault.ok_bind, ih (by omega)]

/-- Without line ends there is nothing left to drop. -/
theorem afterPasses_preformattedPage_zero
    (hcompile : Policy.compile (elementRules ["pre"]) .null = .ok policy) (count : Nat) :
    policy.afterPasses count (preformattedPage 0) = .ok (preformattedPage 0) := by
  have hpass : (Policy.compile (elementRules ["pre"]) .null >>= fun policy =>
      policy.afterPasses 1 (preformattedPage 0)) = .ok (preformattedPage 0) := by decide +kernel
  rw [hcompile, Fault.ok_bind] at hpass
  exact Policy.afterPasses_of_fixed hpass count

end Preformatted

/-- The usual ceiling cuts the passes over a page of twenty-two line ends off with two of them
left, and sanitizing the result drops these too. -/
theorem sanitize_not_idempotent :
    ¬ ∀ html rules config result, sanitize html rules config = .ok result →
      sanitize result rules config = .ok result := by
  intro hidempotent
  have hten : (Policy.compile (elementRules ["pre"]) .null >>= fun policy =>
      .ok policy.config.maxPasses) = .ok 10 := by decide +kernel
  obtain ⟨policy, hcompile, hceiling⟩ := Fault.exists_of_bind_eq_ok hten
  have hsanitize (html : String) :
      sanitize html (elementRules ["pre"]) .null = policy.afterPasses 10 html := by
    rw [sanitize, hcompile, Fault.ok_bind, Policy.sanitize_eq_afterPasses,
      Except.ok.inj hceiling]
  have hfirst : policy.afterPasses 10 (preformattedPage 22) = .ok (preformattedPage 2) :=
    afterPasses_preformattedPage_add hcompile 10 1 (Nat.le_refl 11)
  have hsecond : policy.afterPasses 10 (preformattedPage 2) = .ok (preformattedPage 0) := by
    have hlast : policy.afterPasses 1 (preformattedPage 2) = .ok (preformattedPage 0) :=
      afterPasses_preformattedPage hcompile 0 (Nat.succ_pos 10)
    rw [show 10 = 1 + 9 from rfl, Policy.afterPasses_add, hlast, Fault.ok_bind]
    exact afterPasses_preformattedPage_zero hcompile 9
  have hagain := hidempotent _ _ _ _ ((hsanitize _).trans hfirst)
  rw [hsanitize, hsecond] at hagain
  exact absurd hagain (by decide)

end Winnow
