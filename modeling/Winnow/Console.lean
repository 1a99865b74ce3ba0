import Winnow.Arguments.Reading
import Winnow.Files
import Winnow.Libraries
import Winnow.RuleFile
import Winnow.Sanitize

/-!
# The program

A call names a file to be sanitized, or leaves it to the standard input, and
gives the rules one by one or in a file. What the program writes is computed
here; reading and printing are left to the caller.
-/

namespace Winnow

/-- What a program leaves behind. -/
structure Outcome where
  code : Nat
  output : String := ""
  errors : String := ""
  deriving DecidableEq, Repr

namespace Console

def ruleOption : OptionEntry where
  names := ["-r", "--rule"]
  kind := .text "RULE"
  purpose := "Allow rule: TAG, TAG|ATTR or style|SELECTOR|PROPERTY (repeatable)"

def rulesFileOption : OptionEntry where
  names := ["--rules-file"]
  kind := .text "PATH"
  purpose := "Read additional rules from PATH, one per line"

def commonOption : OptionEntry where
  names := ["--allow-common-attributes"]
  kind := .switch
  purpose := "Also allow class/id everywhere and common link/image attributes"

def scriptOption : OptionEntry where
  names := ["--allow-javascript"]
  kind := .switch
  purpose := "Keep allowed scripts and event handlers, skip URL checks"

def passesOption : OptionEntry where
  names := ["--max-passes"]
  kind := .integer "MAX_PASSES"
  purpose := "Maximum number of filtering passes (default: " ++
    toString Config.defaultMaxPasses ++ ")"

def verboseOption : OptionEntry where
  names := ["-v", "--verbose"]
  kind := .switch
  purpose := "Log progress to stderr"

/-- What the program can be called with. -/
def manual : Manual where
  program := "trimhtml"
  summary := "Reduce HTML to the subset allowed by a list of rules"
  operand := some ⟨"file", "Input HTML file (default: stdin)"⟩
  options := [.forHelp, ruleOption, rulesFileOption, commonOption, scriptOption, passesOption,
    verboseOption]

/-- What a call can read. -/
structure Surroundings where
  files : Files
  input : String
  libraries : Libraries := {}
  obstacles : Obstacles := fun _ => none

/-- The configuration that a call gives. -/
def configOf (call : Call) : Except Fault Config :=
  Config.ofValues (.bool (call.has commonOption)) (.bool (call.has scriptOption))
    (.int ((call.lastInteger? passesOption).getD Config.defaultMaxPasses))

/-- Log lines as text, if they are wanted. -/
def logText (verbose : Bool) (lines : List String) : String :=
  if verbose then String.join (lines.map (· ++ "\n")) else ""

/-- Sanitize a text under the rules and the configuration of a call. -/
def sanitizeText (surroundings : Surroundings) (call : Call) (rules : List Value)
    (html : String) : Except Fault Outcome := do
  let verbose := call.has verboseOption
  let policy := Policy.ofRules (rules.map Rule.ofValue) (← configOf call)
  let ruleLog := Rule.logLines rules
  match surroundings.libraries.use surroundings.obstacles with
  | .error (.unavailable distribution reason) =>
    return { code := 1
             errors := logText verbose ruleLog ++ "trimhtml: " ++
               unavailableMessage distribution reason ++ "\n" }
  | .error fault => throw fault
  | .ok (_, loadLog) =>
    let history ← policy.history html
    return { code := 0
             output := history.result html ++ "\n"
             errors := logText verbose (ruleLog ++ loadLog ++ history.logLines policy) }

/-- A call that is not carried out. -/
def misused (message : String) : Outcome := { code := 2, errors := manual.report message }

/-- The text of a named file. An empty name, or none, names no file. -/
def namedText (files : Files) (path : Option String) :
    Except Fault (Option (Except String String)) :=
  match path with
  | none => .ok none
  | some path =>
    if path.isEmpty then .ok none
    else do return some (← files.readText path)

/-- Carry out a call. The rules file is read before the input. -/
def carryOut (surroundings : Surroundings) (call : Call) : Except Fault Outcome := do
  let given := (call.texts ruleOption).map Value.text
  match ← namedText surroundings.files (call.texts rulesFileOption).getLast? with
  | some (.error problem) => return misused ("cannot read rules file: " ++ problem)
  | fromFile =>
    let listed := match fromFile with
      | some (.ok content) => (RuleFile.read content).map Value.text
      | _ => []
    match ← namedText surroundings.files call.operand with
    | some (.error problem) => return misused ("cannot read input: " ++ problem)
    | some (.ok html) => sanitizeText surroundings call (given ++ listed) html
    | none => sanitizeText surroundings call (given ++ listed) surroundings.input

/-- The paths of the files that a call reads. -/
def paths (call : Call) : List String :=
  (([(call.texts rulesFileOption).getLast?, call.operand].filterMap id).filter
    (!·.isEmpty)).map Files.tidyPath

/-- The paths of the files that a call with the given arguments reads. -/
def pathsOf (arguments : List String) : List String :=
  match manual.read arguments with
  | .ok call => paths call
  | .error _ => []

/-- Is the standard input read by a call with the given arguments? -/
def readsInput (arguments : List String) : Bool :=
  match manual.read arguments with
  | .ok call => (call.operand.getD "").isEmpty
  | .error _ => false

/-- What the program does when it is called with the given arguments. -/
def run (surroundings : Surroundings) (arguments : List String) : Except Fault Outcome :=
  match manual.read arguments with
  | .error .help => .ok { code := 0, output := manual.help }
  | .error (.misuse message) => .ok (misused message)
  | .ok call => carryOut surroundings call

end Console

end Winnow
