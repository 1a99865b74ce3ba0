import Winnow.Value

/-!
# Configuration

The switches of a policy. Options come from mappings with keys in either of two
spellings; unknown keys and null values are passed over, the later of two
values for one option counts, and a pass ceiling is at least one.
-/

namespace Winnow

/-- Behaviour switches of a policy. -/
structure Config where
  /-- Also allow a few conventional attributes. -/
  allowCommonAttributes : Bool := false
  /-- Keep allowed scripts and event handlers, and check no addresses. -/
  allowJavaScript : Bool := false
  /-- How many filtering passes are made at most. -/
  maxPasses : Nat := 10
  deriving DecidableEq, Repr

/-- The options that a mapping can set. -/
inductive ConfigOption where
  | allowCommonAttributes
  | allowJavaScript
  | maxPasses
  deriving DecidableEq, Repr

/-- The option that a key of a mapping sets. -/
def ConfigOption.ofKey? (key : String) : Option ConfigOption :=
  if key == "allowCommonAttributes" || key == "allow_common_attributes" then
    some .allowCommonAttributes
  else if key == "allowJavaScript" || key == "allow_javascript" then some .allowJavaScript
  else if key == "maxPasses" || key == "max_passes" then some .maxPasses
  else none

namespace Config

/-- The pass ceiling when none is given or it cannot be read. -/
def defaultMaxPasses : Nat := 10

/-- Read a pass ceiling. What is no integer gives the default, a ceiling below
one is raised to one, and an infinity is refused. -/
def readMaxPasses (value : Value) : Except Fault Nat :=
  match value.toInt with
  | .ok n => .ok (max 1 n).toNat
  | .error .infiniteInteger => .error .infiniteInteger
  | .error _ => .ok defaultMaxPasses

/-- A configuration from raw option values. -/
def ofValues (allowCommonAttributes allowJavaScript maxPasses : Value) :
    Except Fault Config := do
  let passes ← readMaxPasses maxPasses
  return {
    allowCommonAttributes := allowCommonAttributes.isSet
    allowJavaScript := allowJavaScript.isSet
    maxPasses := passes }

/-- The last value that the entries give for an option. -/
def lastValue (option : ConfigOption) (entries : List (String × Value)) (fallback : Value) :
    Value :=
  entries.foldl (fun found entry =>
    match entry.2 with
    | .null => found
    | value => if ConfigOption.ofKey? entry.1 = some option then value else found) fallback

/-- The configuration of a mapping, whose entries are given in insertion order. -/
def ofEntries (entries : List (String × Value)) : Except Fault Config :=
  ofValues (lastValue .allowCommonAttributes entries (.bool false))
    (lastValue .allowJavaScript entries (.bool false))
    (lastValue .maxPasses entries (.int defaultMaxPasses))

/-- The configuration that a value stands for: the defaults for null, the
options of a mapping, and nothing else. -/
def ofValue : Value → Except Fault Config
  | .null => .ok {}
  | .mapping entries => ofEntries entries
  | value => .error (.configurationKind value.kindName)

end Config

end Winnow
