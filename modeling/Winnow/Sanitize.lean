import Winnow.Enforcement
import Winnow.Screen.Document

/-!
# Sanitizing a text

A pass reads a text, enforces a policy on the document and writes it again;
while scripting is not allowed, what is written is screened as well. Writing and
reading may join texts or move markup, so passes are repeated until one changes
nothing or the ceiling is reached.
-/

namespace Winnow

/-- What a pass gives. -/
structure Pass where
  output : String
  /-- How much of the budgets the pass used. -/
  tally : Tally
  deriving DecidableEq, Repr

/-- Passes in order. -/
structure History where
  passes : List Pass
  /-- Did the last pass change nothing? -/
  settled : Bool
  deriving DecidableEq, Repr

namespace Policy

/-- One pass over a text. -/
def pass (policy : Policy) (html : String) : Except Fault Pass := do
  let (document, tally) ← (← Html.parse html).enforce policy
  let output ← if policy.config.allowJavaScript then .ok document.html
    else policy.screen.cleanDocument document
  return { output := output, tally := tally }

/-- At most so many passes over a text, the last of which is the first to change nothing. -/
def passes (policy : Policy) : Nat → String → Except Fault History
  | 0, _ => .ok { passes := [], settled := false }
  | more + 1, html => do
    let pass ← policy.pass html
    if pass.output = html then return { passes := [pass], settled := true }
    else
      let history ← policy.passes more pass.output
      return { history with passes := pass :: history.passes }

/-- The passes that a policy makes over a text. -/
def history (policy : Policy) (html : String) : Except Fault History :=
  policy.passes policy.config.maxPasses html

end Policy

namespace History

/-- The output of the last pass, or the text itself if there was none. -/
def result (history : History) (html : String) : String :=
  match history.passes.getLast? with
  | some pass => pass.output
  | none => html

/-- The log line that ends a run of passes. -/
def lastLine (history : History) : String :=
  if history.settled then
    "DEBUG trimhtml.sanitize: Converged after " ++ toString history.passes.length ++ " pass(es)"
  else
    "INFO trimhtml.sanitize: Output still changing after " ++ toString history.passes.length ++
      " passes; returning last result"

/-- The log lines of a run of passes. -/
def logLines (history : History) (policy : Policy) : List String :=
  history.passes.map (fun pass => policy.passLine pass.tally) ++ [history.lastLine]

end History

/-- Sanitize a text under a policy. -/
def Policy.sanitize (policy : Policy) (html : String) : Except Fault String := do
  return (← policy.history html).result html

/-- Sanitize a text under untyped rules and an untyped configuration. -/
def sanitize (html : String) (rules config : Value) : Except Fault String := do
  (← Policy.compile rules config).sanitize html

end Winnow
