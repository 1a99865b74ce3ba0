/-!
# Faults

Everything that can stop an operation. Hostile markup, rules and styles are
handled without a fault; what remains are arguments of the wrong kind, numerals
too long to read, and documents whose structure the parser cannot account for.
-/

namespace Winnow

/-- Why an operation has no answer. -/
inductive Fault where
  /-- A configuration of the named kind, which has no options. -/
  | configurationKind (kind : String)
  /-- Something of the named kind where a compiled policy is needed. -/
  | policyKind (kind : String)
  /-- A library that the work needs is missing, and why. -/
  | unavailable (distribution : String) (reason : Option String)
  /-- A node without a name. -/
  | emptyTagName
  /-- A value that cannot be listed item by item. -/
  | notListed
  /-- A value that cannot be a key or a member of a set. -/
  | notAKey
  /-- A value that has no integer reading at all. -/
  | notNumeric
  /-- A text that does not write an integer. -/
  | malformedInteger
  /-- A decimal numeral with more digits than may be read. -/
  | numeralTooLong
  /-- An infinity where an integer is needed. -/
  | infiniteInteger
  /-- A reference node that is no longer among the children. -/
  | notAChild
  /-- An open element stands where the parser expects none outside a fragment. -/
  | misplacedElement
  /-- Bytes that are not UTF-8 text. -/
  | undecodable
  /-- A null character in the path of a file. -/
  | nullInPath
  /-- A rate over no elapsed time. -/
  | noElapsedTime
  deriving DecidableEq, Repr

/-- The text of a fault that an unavailable library explains to the caller. -/
def unavailableMessage (distribution : String) (reason : Option String) : String :=
  let text := "TrimHTML cannot sanitize without '" ++ distribution ++
    "'. Install it with: pip install " ++ distribution
  match reason with
  | some reason => if reason.isEmpty then text else text ++ " (" ++ reason ++ ")"
  | none => text

/-- The explanation that goes with a fault, for those that carry one. -/
def Fault.message? : Fault → Option String
  | .configurationKind kind =>
    some ("config must be a SanitizerConfig or a mapping, not " ++ kind)
  | .policyKind kind => some ("policy must be a Policy from compile_rules(), not " ++ kind)
  | .unavailable distribution reason => some (unavailableMessage distribution reason)
  | .emptyTagName => some "Empty tag_name passed to Node constructor"
  | _ => none

/-- What went wrong, for a reader. -/
def Fault.wording (fault : Fault) : String :=
  match fault with
  | .notListed => "a value cannot be listed item by item"
  | .notAKey => "a value cannot be a key"
  | .notNumeric => "a value is no number"
  | .malformedInteger => "a text writes no integer"
  | .numeralTooLong => "a numeral has too many digits"
  | .infiniteInteger => "an integer is infinite"
  | .notAChild => "a reference node is no child"
  | .misplacedElement => "an element stands where none is expected"
  | .undecodable => "a file is not UTF-8 text"
  | .nullInPath => "a path holds a null character"
  | .noElapsedTime => "no time has passed"
  | fault => fault.message?.getD ""

end Winnow
