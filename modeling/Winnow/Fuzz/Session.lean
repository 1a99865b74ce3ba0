import Winnow.Arguments.Reading
import Winnow.Audit
import Winnow.Fuzz.Sample
import Winnow.Text.Fixed

/-!
# Fuzzing sessions

A session sanitizes documents made by chance and audits what comes out. Time is
read off a clock that advances by the same step with every reading.
-/

namespace Winnow.Fuzz

/-- A clock that advances with every reading. -/
structure Clock where
  step : Nat
  time : Nat := 0
  deriving DecidableEq, Repr

/-- The clock after a reading, whose time it shows. -/
def Clock.tick (clock : Clock) : Clock := { clock with time := clock.time + clock.step }

/-- How a trial ends. -/
inductive Verdict where
  | success
  | crash
  | violation (found : List Violation)
  | hang (time : Nat)
  deriving DecidableEq, Repr

/-- A document and rules with the way in which their trial ended. -/
structure Trial where
  number : Nat
  html : String
  rules : List String
  verdict : Verdict
  deriving DecidableEq, Repr

/-- A trial takes too long from here on. -/
def patience : Nat := 5

/-- Sanitize and audit a document, with the clock after it. -/
def attempt (clock : Clock) (html : String) (rules : List String) (switches : Switches) :
    Verdict × Clock :=
  let policy := Policy.ofLines rules {
    allowCommonAttributes := switches.allowCommonAttributes
    allowJavaScript := switches.allowJavaScript }
  let started := clock.tick
  match policy.sanitize html with
  | .error _ => (.crash, started)
  | .ok output =>
    let stopped := started.tick
    match policy.audit output with
    | .error _ => (.crash, stopped)
    | .ok [] =>
      let elapsed := stopped.time - started.time
      (if patience < elapsed then .hang elapsed else .success, stopped)
    | .ok found => (.violation found, stopped)

/-- So many trials, the first of which has the given number. -/
def trials (clock : Clock) (number : Nat) : Nat → Gen (List Trial × Clock)
  | 0 => pure ([], clock)
  | more + 1 => do
    let html ← document
    let rules ← rules
    let switches ← switches
    let (verdict, clock) := attempt clock html rules switches
    let (rest, clock) ← trials clock (number + 1) more
    return ({ number, html, rules, verdict } :: rest, clock)

/-! ## Reports -/

namespace Trial

/-- Did the trial crash? -/
def crashed (trial : Trial) : Bool := trial.verdict == .crash

/-- Did the trial succeed? -/
def succeeded (trial : Trial) : Bool := trial.verdict == .success

/-- Did the trial take too long? -/
def hung (trial : Trial) : Bool :=
  match trial.verdict with
  | .hang _ => true
  | _ => false

/-- The violations found. -/
def found (trial : Trial) : List Violation :=
  match trial.verdict with
  | .violation found => found
  | _ => []

/-- What is said of a trial while it runs, if everything is told. -/
def progress (count : Int) (trial : Trial) : String :=
  (if trial.number % 100 = 0 then
    "  Test " ++ toString trial.number ++ "/" ++ toString count ++ "...\n" else "") ++
  match trial.verdict with
  | .violation (first :: _) =>
    "  VIOLATION: Test " ++ toString trial.number ++ ": " ++ first.message ++ "\n"
  | .hang time =>
    "  HANG: Test " ++ toString trial.number ++ " took " ++ Text.fixed 2 time ++ "s\n"
  | _ => ""

/-- What is said of the violations of a trial at the end. -/
def summary (trial : Trial) : String :=
  if trial.found.isEmpty then ""
  else
    "\nVIOLATION #" ++ toString trial.number ++ ":\n  HTML: " ++
      Text.quoted (String.ofList (trial.html.toList.take 200)) ++ "...\n  Rules: " ++
      Text.quotedList trial.rules ++ "\n" ++
      String.join (trial.found.map fun violation => "  - " ++ violation.message ++ "\n")

/-- The record of a failed trial in a file. -/
def record (trial : Trial) : String :=
  match trial.verdict with
  | .violation found =>
    "=== VIOLATION #" ++ toString trial.number ++ " ===\nHTML:\n" ++ trial.html ++ "\nRules: " ++
      Text.quotedList trial.rules ++ "\n" ++ "\n".intercalate (found.map (·.message)) ++ "\n\n"
  | .hang time =>
    "=== HANG #" ++ toString trial.number ++ " (" ++ Text.fixed 2 time ++ "s) ===\nHTML:\n" ++
      trial.html ++ "\n\n"
  | _ => ""

end Trial

/-- What a session is asked to do. -/
structure Order where
  /-- How many trials are made; none if the number is negative. -/
  count : Int := 1000
  /-- A seed, and the way in which it is written. -/
  seed : Option String := none
  verbose : Bool := false
  saves : Bool := false
  deriving DecidableEq, Repr

/-- What a session leaves behind. -/
structure Report where
  output : String
  /-- The file of failures, by name and content. -/
  file : Option (String × String) := none
  passed : Bool
  deriving DecidableEq, Repr

/-- A line of sixty equals signs. -/
def rule : String := String.ofList (List.replicate 60 '=') ++ "\n"

/-- The numbers of a session, over a time that is not zero. -/
def figures (count : Int) (trials : List Trial) (elapsed : Nat) : String :=
  "\n" ++ rule ++ "FUZZING RESULTS: trimhtml\n" ++ rule ++
    "Total tests:    " ++ toString count ++ "\n" ++
    "Successes:      " ++ toString (trials.countP (·.succeeded)) ++ "\n" ++
    "Crashes:        " ++ toString (trials.countP (·.crashed)) ++ "\n" ++
    "Violations:     " ++ toString (trials.countP (!·.found.isEmpty)) ++ "\n" ++
    "Hangs (>5s):    " ++ toString (trials.countP (·.hung)) ++ "\n" ++
    "Total time:     " ++ Text.fixed 2 elapsed ++ "s\n" ++
    "Tests/second:   " ++ Text.fixedRatio 1 count elapsed ++ "\n"

/-- The file of failures, if there are any and they are to be saved. -/
def failureFile (order : Order) (clock : Clock) (trials : List Trial) :
    Option (String × String) :=
  if order.saves && trials.any (!·.succeeded) then
    let records := trials.filter (·.crashed) ++ trials.filter (!·.found.isEmpty) ++
      trials.filter (·.hung)
    some ("fuzz_failures_trimhtml_" ++ toString clock.tick.time ++ ".txt",
      "Seed: " ++ order.seed.getD "None" ++ "\n\n" ++ String.join (records.map (·.record)))
  else none

/-- Carry out a session with a clock. -/
def session (order : Order) (clock : Clock) : Gen (Except Fault Report) := do
  if order.seed.isSome then Gen.restart
  let started := clock.tick
  let (trials, clock) ← trials started 0 order.count.toNat
  let stopped := clock.tick
  let elapsed := stopped.time - started.time
  if elapsed = 0 then return .error .noElapsedTime
  let file := failureFile order stopped trials
  let saved := match file with
    | some (name, _) => "\nFailures saved to " ++ name ++ "\n"
    | none => ""
  let progress := if order.verbose then String.join (trials.map (·.progress order.count)) else ""
  return .ok {
    output := "Fuzzing trimhtml with " ++ toString order.count ++ " test cases...\n" ++ progress ++
      figures order.count trials elapsed ++
      String.join (((trials.filter (!·.found.isEmpty)).take 10).map (·.summary)) ++ saved
    file := file
    passed := trials.all (·.succeeded) }

end Winnow.Fuzz
