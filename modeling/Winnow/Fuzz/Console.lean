import Winnow.Fuzz.Session

/-!
# The fuzzing program

A call asks for a session of trials, or for sample documents and rule lists to
be shown.
-/

namespace Winnow.Fuzz

namespace Console

def countOption : OptionEntry where
  names := ["--num-tests", "-n"]
  kind := .integer "NUM_TESTS"
  purpose := "Number of test cases to generate (default: 1000)"

def seedOption : OptionEntry where
  names := ["--seed", "-s"]
  kind := .integer "SEED"
  purpose := "Random seed for reproducibility"

def verboseOption : OptionEntry where
  names := ["--verbose", "-v"]
  kind := .switch
  purpose := "Verbose output"

def saveOption : OptionEntry where
  names := ["--save-failures"]
  kind := .switch
  purpose := "Save failures to a file"

def sampleOption : OptionEntry where
  names := ["--sample"]
  kind := .integer "N"
  purpose := "Just print N sample documents and rule sets (no sanitizing)"

/-- What the program can be called with. -/
def manual : Manual where
  program := "fuzz.py"
  summary := "Fuzz the TrimHTML sanitizer with hostile input"
  options := [.forHelp, countOption, seedOption, verboseOption, saveOption, sampleOption]

/-- What the program leaves behind. Showing samples ends without an exit code. -/
structure Outcome where
  code : Option Nat
  output : String := ""
  errors : String := ""
  file : Option (String × String) := none
  deriving DecidableEq, Repr

/-- One sample. -/
def sample (number : Nat) : Gen String := do
  let rules ← rules
  let html ← document
  return "=== Sample " ++ toString number ++ " ===\n" ++ Text.quotedList rules ++ "\n" ++ html ++
    "\n\n"

/-- So many samples, the first of which has the given number. -/
def samples (number : Nat) : Nat → Gen String
  | 0 => pure ""
  | more + 1 => do
    let first ← sample number
    let rest ← samples (number + 1) more
    return first ++ rest

/-- The session that a call asks for. -/
def orderOf (call : Call) : Order where
  count := (call.lastInteger? countOption).getD 1000
  seed := (call.lastInteger? seedOption).map toString
  verbose := call.has verboseOption
  saves := call.has saveOption

/-- How many samples a call asks for, if it asks for any. -/
def sampleCount? (call : Call) : Option Int :=
  match call.lastInteger? sampleOption with
  | some n => if n = 0 then none else some n
  | none => none

/-- Carry out a call. -/
def carryOut (step : Nat) (call : Call) : Gen (Except Fault Outcome) := do
  match sampleCount? call with
  | some count =>
    if call.has seedOption then Gen.restart
    return .ok { code := none, output := ← samples 1 count.toNat }
  | none =>
    match ← session (orderOf call) { step := step } with
    | .error fault => return .error fault
    | .ok report =>
      return .ok {
        code := some (if report.passed then 0 else 1)
        output := report.output
        file := report.file }

/-- What the program does when it is called with the given arguments. The clock
advances by `step` with every reading. -/
def run (draws : Draws) (step : Nat) (arguments : List String) : Except Fault Outcome :=
  match manual.read arguments with
  | .error .help => .ok { code := some 0, output := manual.help }
  | .error (.misuse message) => .ok { code := some 2, errors := manual.report message }
  | .ok call => (carryOut step call draws).1

end Console

end Winnow.Fuzz
