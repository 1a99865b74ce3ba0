import Winnow.Arguments.Manual
import Winnow.Text.Digits
import Winnow.Text.Quoted

/-!
# Reading arguments

The arguments of a call are first marked one by one: an option, an operand, or
the divider after which everything is an operand. Long options may be shortened
as long as one option is meant, and short ones may be joined. The marks are then
read in order.
-/

namespace Winnow

/-- What is given to an option. -/
inductive Given where
  | on
  | text (value : String)
  | integer (value : Int)
  deriving DecidableEq, Repr

/-- An option as it is given. -/
structure Setting where
  option : OptionEntry
  given : Given
  deriving DecidableEq, Repr

/-- A call that has been read. -/
structure Call where
  settings : List Setting := []
  operand : Option String := none
  deriving DecidableEq, Repr

/-- Why a call is not carried out. -/
inductive Refusal where
  /-- The help text is asked for. -/
  | help
  | misuse (message : String)
  deriving DecidableEq, Repr

namespace Refusal

/-- An argument of an option is wrong. -/
def ofOption (option : OptionEntry) (message : String) : Refusal :=
  .misuse ("argument " ++ option.title ++ ": " ++ message)

/-- The value of an option is missing. -/
def missingValue (option : OptionEntry) : Refusal := .ofOption option "expected one argument"

/-- An option has a value that it does not take. -/
def extraValue (option : OptionEntry) (value : List Char) : Refusal :=
  .ofOption option ("ignored explicit argument " ++ Text.quoted (String.ofList value))

end Refusal

/-! ## Marks -/

/-- What follows an option in the same argument. -/
inductive Attached where
  | nothing
  | afterEquals (text : List Char)
  /-- Text directly after a short option: its value, or further short options. -/
  | joined (text : List Char)
  deriving DecidableEq, Repr

/-- An option in an argument, as it is spelled. -/
structure Spelling where
  name : String
  option : OptionEntry
  attached : Attached
  deriving DecidableEq, Repr

/-- What an argument is by itself. -/
inductive Mark where
  | operand
  | divider
  | option (spelling : Spelling)
  | unknownOption
  deriving DecidableEq, Repr

/-- Is this an option or meant as one? -/
def Mark.isOption : Mark → Bool
  | option _ => true
  | unknownOption => true
  | _ => false

namespace Manual

/-- A text before the first equals sign, and the text after it if there is one. -/
def splitEquals (cs : List Char) : List Char × Attached :=
  (cs.takeWhile (· != '='), match cs.dropWhile (· != '=') with
    | _ :: value => .afterEquals value
    | [] => .nothing)

/-- The options that a shortened long option may mean. -/
def longCandidates (manual : Manual) (argument : List Char) : List Spelling :=
  let (start, attached) := splitEquals argument
  manual.spellings.filterMap fun entry =>
    if start.isPrefixOf entry.1.toList then some ⟨entry.1, entry.2, attached⟩ else none

/-- The options that an argument with one hyphen may mean. -/
def shortCandidates (manual : Manual) (argument : List Char) : List Spelling :=
  manual.spellings.filterMap fun entry =>
    if entry.1.toList = argument.take 2 then
      some ⟨entry.1, entry.2, .joined (argument.drop 2)⟩
    else if argument.isPrefixOf entry.1.toList then some ⟨entry.1, entry.2, .nothing⟩
    else none

/-- A digit of any script. -/
def isDigit (c : Char) : Bool := (Text.digitValue? c).isSome

/-- Does the text after a hyphen make it a negative number? A line feed may end it. -/
def isNumber (cs : List Char) : Bool :=
  let cs := match cs.reverse with
    | '\n' :: rest => rest.reverse
    | _ => cs
  match cs.dropWhile isDigit with
  | [] => !cs.isEmpty
  | '.' :: fraction => !fraction.isEmpty && fraction.all isDigit
  | _ => false

/-- The mark of an argument that starts with a hyphen and is no full spelling. -/
def markOfCandidates (argument : List Char) (candidates : List Spelling) : Except Refusal Mark :=
  match candidates with
  | [spelling] => .ok (.option spelling)
  | [] =>
    if isNumber (argument.drop 1) || argument.contains ' ' then .ok .operand
    else .ok .unknownOption
  | _ =>
    .error (.misuse ("ambiguous option: " ++ String.ofList argument ++ " could match " ++
      ", ".intercalate (candidates.map (·.name))))

/-- The mark of an argument before any divider. -/
def markOf (manual : Manual) (argument : String) : Except Refusal Mark :=
  let (start, attached) := splitEquals argument.toList
  match argument.toList with
  | '-' :: c :: cs =>
    match manual.find? argument, manual.find? (String.ofList start) with
    | some option, _ => .ok (.option ⟨argument, option, .nothing⟩)
    | none, some option => .ok (.option ⟨String.ofList start, option, attached⟩)
    | none, none =>
      markOfCandidates ('-' :: c :: cs) <|
        if c = '-' then manual.longCandidates ('-' :: c :: cs)
        else manual.shortCandidates ('-' :: c :: cs)
  | _ => .ok .operand

/-- Arguments with their marks. -/
def marks (manual : Manual) : List String → Except Refusal (List (String × Mark))
  | [] => .ok []
  | argument :: rest =>
    if argument = "--" then .ok ((argument, .divider) :: rest.map fun a => (a, .operand))
    else do
      let mark ← manual.markOf argument
      let rest ← manual.marks rest
      return (argument, mark) :: rest

/-! ## Options -/

/-- An option to be carried out, with its value if it takes one. -/
abbrev Use := OptionEntry × Option String

/-- What one argument calls for. -/
structure Uses where
  /-- The options, in order. -/
  list : List Use
  /-- Characters that are no options, as an argument of their own. -/
  stray : Option String := none
  /-- Is the next argument the value of the last option? -/
  taken : Bool := false

/-- An option without a value in its argument. The next argument is its value if it
takes one. -/
def useAlone (option : OptionEntry) (next : Option (String × Mark)) : Except Refusal Uses :=
  if option.takesValue then
    match next with
    | some (value, .operand) => .ok { list := [(option, some value)], taken := true }
    | _ => .error (.missingValue option)
  else .ok { list := [(option, none)] }

/-- An option with text after an equals sign. -/
def useGiven (option : OptionEntry) (text : List Char) : Except Refusal Uses :=
  if option.takesValue then .ok { list := [(option, some (String.ofList text))] }
  else .error (.extraValue option text)

/-- A short option with text joined to it: its value, or further short options up to
the first character that is none. -/
def useJoined (manual : Manual) (next : Option (String × Mark)) (option : OptionEntry) :
    List Char → Except Refusal Uses
  | [] => useAlone option next
  | c :: cs =>
    if option.takesValue then useGiven option (c :: cs)
    else if c = '-' then .error (.extraValue option (c :: cs))
    else
      match manual.find? (String.ofList ['-', c]) with
      | none =>
        .ok { list := [(option, none)], stray := some (String.ofList ('-' :: c :: cs)) }
      | some another => do
        let uses ← if cs.head? = some '=' then useGiven another (cs.drop 1)
          else manual.useJoined next another cs
        return { uses with list := (option, none) :: uses.list }

/-- The options of one argument. -/
def uses (manual : Manual) (spelling : Spelling) (next : Option (String × Mark)) :
    Except Refusal Uses :=
  match spelling.attached with
  | .nothing => useAlone spelling.option next
  | .afterEquals text => useGiven spelling.option text
  | .joined text => manual.useJoined next spelling.option text

/-- Carry out an option. -/
def settingOf (use : Use) : Except Refusal Setting :=
  match use.1.kind with
  | .help => .error .help
  | .switch => .ok ⟨use.1, .on⟩
  | .text _ => .ok ⟨use.1, .text (use.2.getD "")⟩
  | .integer _ =>
    let text := use.2.getD ""
    match Text.readInt? text with
    | some n => .ok ⟨use.1, .integer n⟩
    | none => .error (.ofOption use.1 ("invalid int value: " ++ Text.quoted text))

/-! ## Calls -/

/-- A call of which a part has been read. -/
structure Draft where
  call : Call := {}
  /-- May an operand still be given? -/
  awaits : Bool
  /-- Arguments without a meaning. -/
  extras : List String := []

namespace Draft

/-- The draft with the operand. -/
def withOperand (draft : Draft) (operand : String) : Draft :=
  { draft with call := { draft.call with operand := some operand }, awaits := false }

/-- The draft with arguments without a meaning. -/
def withExtras (draft : Draft) (extras : List (String × Mark)) : Draft :=
  { draft with extras := draft.extras ++ extras.map (·.1) }

/-- The draft with characters without a meaning. -/
def withStray (draft : Draft) (stray : Option String) : Draft :=
  { draft with extras := draft.extras ++ stray.toList }

/-- The draft with settings. -/
def withSettings (draft : Draft) (settings : List Setting) : Draft :=
  { draft with call := { draft.call with settings := draft.call.settings ++ settings } }

/-- The arguments after the last option. A divider next to the operand goes with it. -/
def finish (draft : Draft) (rest : List (String × Mark)) : Draft :=
  if draft.awaits then
    match rest with
    | (operand, .operand) :: (_, .divider) :: rest => (draft.withOperand operand).withExtras rest
    | (operand, .operand) :: rest => (draft.withOperand operand).withExtras rest
    | (_, .divider) :: (operand, _) :: rest => (draft.withOperand operand).withExtras rest
    | (_, .divider) :: [] => draft
    | rest => draft.withExtras rest
  else draft.withExtras rest

end Draft

/-- Read marked arguments. -/
def readMarks (manual : Manual) (draft : Draft) : List (String × Mark) → Except Refusal Draft
  | [] => .ok draft
  | (argument, mark) :: rest =>
    if !(((argument, mark) :: rest).any (·.2.isOption)) then
      .ok (draft.finish ((argument, mark) :: rest))
    else
      match mark with
      | .option spelling =>
        match manual.uses spelling rest.head? with
        | .error refusal => .error refusal
        | .ok uses =>
          match uses.list.mapM settingOf with
          | .error refusal => .error refusal
          | .ok settings =>
            let draft := (draft.withSettings settings).withStray uses.stray
            manual.readMarks draft (rest.drop (if uses.taken then 1 else 0))
      | .operand =>
        if draft.awaits then manual.readMarks (draft.withOperand argument) rest
        else manual.readMarks (draft.withExtras [(argument, mark)]) rest
      | _ => manual.readMarks (draft.withExtras [(argument, mark)]) rest
termination_by marks => marks.length
decreasing_by all_goals simp only [List.length_cons, List.length_drop]; omega

/-- Read the arguments of a call. -/
def read (manual : Manual) (arguments : List String) : Except Refusal Call := do
  let marks ← manual.marks arguments
  let draft ← manual.readMarks { awaits := manual.operand.isSome } marks
  if draft.extras.isEmpty then return draft.call
  else throw (.misuse ("unrecognized arguments: " ++ " ".intercalate draft.extras))

end Manual

namespace Call

/-- Is an option given? -/
def has (call : Call) (option : OptionEntry) : Bool :=
  call.settings.any fun setting => setting.option == option

/-- The texts given to an option, in order. -/
def texts (call : Call) (option : OptionEntry) : List String :=
  call.settings.filterMap fun setting =>
    match setting.given with
    | .text value => if setting.option == option then some value else none
    | _ => none

/-- The last integer given to an option. -/
def lastInteger? (call : Call) (option : OptionEntry) : Option Int :=
  (call.settings.filterMap fun setting =>
    match setting.given with
    | .integer value => if setting.option == option then some value else none
    | _ => none).getLast?

end Call

end Winnow
