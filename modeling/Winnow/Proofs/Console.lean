import Winnow.Console
import Winnow.Proofs.Fault
import Winnow.Proofs.Files

/-!
# Reading the inputs of a call

A call that is understood reads the file with its rules first and then its input. Where the system
refuses one of them, nothing is printed but the usage and the reason, and the exit code is two.
Bytes that are no UTF-8 and paths with null characters are faults that the call does not answer.
Where both have texts, what comes out depends on these alone.
-/

namespace Winnow

/-- The text of a file where one is named, and a text in its place where none is. -/
inductive Files.TextOf (files : Files) (inPlace : String) : Option String → String → Prop
  | unnamed : TextOf files inPlace none inPlace
  | named {path text : String} (hreads : files.Reads path text) :
      TextOf files inPlace (some path) text

namespace Console

/-- The name of a file, unless it is empty. -/
def fileOf? (name : Option String) : Option String := name.filter (!·.isEmpty)

/-- The file that a call names for its rules: the last one counts. -/
def rulesFile? (call : Call) : Option String := fileOf? (call.texts rulesFileOption).getLast?

/-- The file that a call names for its input. -/
def inputFile? (call : Call) : Option String := fileOf? call.operand

/-! ## Named files -/

section Named

variable {files : Files} {name : Option String}

theorem namedText_of_none (hname : fileOf? name = none) : namedText files name = .ok none := by
  cases name with
  | none => rfl
  | some path =>
      have hempty : path.isEmpty = true := by simpa [fileOf?, Option.filter] using hname
      simp [namedText, hempty]

theorem namedText_of_some {path : String} (hname : fileOf? name = some path) :
    namedText files name = (files.readText path).map some := by
  cases name with
  | none => cases hname
  | some given =>
      obtain ⟨rfl, hne⟩ : given = path ∧ path ≠ "" := by
        simpa [fileOf?, Option.filter_eq_some_iff, and_comm] using hname
      have hempty : given.isEmpty = false := by simpa using hne
      simp only [namedText, hempty, Bool.false_eq_true, if_false]
      cases files.readText given with
      | error fault => rfl
      | ok read => rfl

theorem namedText_of_unread {path : String} {reason : Except Fault String}
    (hname : fileOf? name = some path) (hunread : files.Unread path reason) :
    namedText files name = reason.map fun words => some (.error words) := by
  rw [namedText_of_some hname, hunread.readText]
  cases reason with
  | error fault => rfl
  | ok words => rfl

end Named

/-! ## Calls -/

variable {surroundings : Surroundings} {call : Call}

theorem carryOut_of_unread_rules {path : String} {reason : Except Fault String}
    (hfile : rulesFile? call = some path) (hunread : surroundings.files.Unread path reason) :
    carryOut surroundings call =
      reason.map fun words => misused ("cannot read rules file: " ++ words) := by
  rw [carryOut, namedText_of_unread hfile hunread]
  cases reason with
  | error fault => rfl
  | ok words => rfl

/-- Once the rules are read, the input is. -/
theorem carryOut_of_rules {content : String}
    (hrules : surroundings.files.TextOf "" (rulesFile? call) content) :
    carryOut surroundings call = namedText surroundings.files call.operand >>= fun read =>
      match read with
      | some (.error problem) => .ok (misused ("cannot read input: " ++ problem))
      | some (.ok html) => sanitizeText surroundings call
          ((call.texts ruleOption ++ RuleFile.read content).map .text) html
      | none => sanitizeText surroundings call
          ((call.texts ruleOption ++ RuleFile.read content).map .text) surroundings.input := by
  rw [List.map_append]
  generalize hfile : rulesFile? call = file at hrules
  cases hrules with
  | unnamed =>
      rw [carryOut, namedText_of_none hfile, Fault.ok_bind]
      rfl
  | named hreads =>
      rw [carryOut, namedText_of_some hfile, hreads.readText]
      rfl

theorem carryOut_of_unread_input {content path : String} {reason : Except Fault String}
    (hrules : surroundings.files.TextOf "" (rulesFile? call) content)
    (hfile : inputFile? call = some path) (hunread : surroundings.files.Unread path reason) :
    carryOut surroundings call =
      reason.map fun words => misused ("cannot read input: " ++ words) := by
  rw [carryOut_of_rules hrules, namedText_of_unread hfile hunread]
  cases reason with
  | error fault => rfl
  | ok words => rfl

theorem carryOut_of_texts {content html : String}
    (hrules : surroundings.files.TextOf "" (rulesFile? call) content)
    (hinput : surroundings.files.TextOf surroundings.input (inputFile? call) html) :
    carryOut surroundings call = sanitizeText surroundings call
      ((call.texts ruleOption ++ RuleFile.read content).map .text) html := by
  rw [carryOut_of_rules hrules]
  generalize hfile : inputFile? call = file at hinput
  cases hinput with
  | unnamed => rw [namedText_of_none hfile, Fault.ok_bind]
  | named hreads =>
      rw [namedText_of_some hfile, hreads.readText]
      rfl

/-- A call that is understood ends with the exit code two and without output if the system refuses
the file with its rules or else the one with its input. Bytes that are no text in UTF-8 and null
characters in paths end it with a fault instead, and they are the only reasons besides. Without
such a reason it goes on with the rules and the text that were read. -/
theorem run_of_unread {surroundings : Surroundings} {arguments : List String} {call : Call}
    (hcall : manual.read arguments = .ok call) :
    (∀ path reason, rulesFile? call = some path → surroundings.files.Unread path reason →
      run surroundings arguments =
        reason.map fun words => misused ("cannot read rules file: " ++ words)) ∧
    (∀ content path reason, surroundings.files.TextOf "" (rulesFile? call) content →
      inputFile? call = some path → surroundings.files.Unread path reason →
        run surroundings arguments =
          reason.map fun words => misused ("cannot read input: " ++ words)) ∧
    (∀ content html, surroundings.files.TextOf "" (rulesFile? call) content →
      surroundings.files.TextOf surroundings.input (inputFile? call) html →
        run surroundings arguments = sanitizeText surroundings call
          ((call.texts ruleOption ++ RuleFile.read content).map .text) html) ∧
    (∀ path, (∃ text, surroundings.files.Reads path text) ∨
      ∃ reason, surroundings.files.Unread path reason) ∧
    ∀ message, (misused message).code = 2 ∧ (misused message).output = "" := by
  have hrun : run surroundings arguments = carryOut surroundings call := by
    rw [run, hcall]
  rw [hrun]
  refine ⟨?_, ?_, ?_, surroundings.files.reads_or_unread, fun _ => ⟨rfl, rfl⟩⟩
  · intro path reason hfile hunread
    exact carryOut_of_unread_rules hfile hunread
  · intro content path reason hrules hfile hunread
    exact carryOut_of_unread_input hrules hfile hunread
  · intro content html hrules hinput
    exact carryOut_of_texts hrules hinput

/-- There is one file. -/
def singleFile (name : String) (bytes : ByteArray) : Surroundings where
  files path := if path = name then .ok bytes else .error .absent
  input := ""

/-- The file with the rules is read, and the one with the input is missing. -/
theorem run_of_unread_absent :
    manual.read ["--rules-file", "r", "page.html"] =
        .ok ⟨[⟨rulesFileOption, .text "r"⟩], some "page.html"⟩ ∧
      run (singleFile "r" "p\n".toUTF8) ["--rules-file", "r", "page.html"] =
        .ok (misused ("cannot read input: " ++ FileProblem.absent.message "page.html")) := by
  have hcall : manual.read ["--rules-file", "r", "page.html"] =
      .ok ⟨[⟨rulesFileOption, .text "r"⟩], some "page.html"⟩ := by with_unfolding_all rfl
  have hrules : Files.tidyPath "r" = "r" := by decide +kernel
  have hinput : Files.tidyPath "page.html" = "page.html" := by decide +kernel
  have hreads : (singleFile "r" "p\n".toUTF8).files.Reads "r"
      (String.ofList (Text.unifyLineEnds "p\n".toList)) := by
    refine @Files.Reads.intro _ _ "p\n" ?_ ?_
    · rw [hrules]
      decide
    · rw [hrules]
      rfl
  have hunread : (singleFile "r" "p\n".toUTF8).files.Unread "page.html"
      (.ok (FileProblem.absent.message (Files.tidyPath "page.html"))) := by
    refine .refused ?_ ?_
    · rw [hinput]
      decide
    · rw [hinput]
      rfl
  rw [hinput] at hunread
  exact ⟨hcall, (run_of_unread hcall).2.1 _ _ _ (.named hreads) rfl hunread⟩

/-- Bytes that are no text are a fault and no wrong use of the program. -/
theorem run_of_undecodable :
    ¬ ∃ outcome, run (singleFile "page.html" ⟨#[0xff]⟩) ["page.html"] = .ok outcome := by
  have hcall : manual.read ["page.html"] = .ok ⟨[], some "page.html"⟩ := by with_unfolding_all rfl
  have hinput : Files.tidyPath "page.html" = "page.html" := by decide +kernel
  have hnone : String.fromUTF8? ⟨#[0xff]⟩ = none := by decide +kernel
  have hunread : (singleFile "page.html" ⟨#[0xff]⟩).files.Unread "page.html"
      (.error .undecodable) := by
    refine @Files.Unread.undecodable _ _ ⟨#[0xff]⟩ ?_ ?_ ?_
    · rw [hinput]
      decide
    · rw [hinput]
      rfl
    · intro text heq
      rw [← heq, String.toUTF8, Files.fromUTF8?_toByteArray] at hnone
      cases hnone
  rintro ⟨outcome, hrun⟩
  rw [run, hcall] at hrun
  dsimp only at hrun
  rw [carryOut_of_unread_input .unnamed rfl hunread] at hrun
  cases hrun

end Console

end Winnow
