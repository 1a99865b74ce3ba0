import Winnow.Assoc
import Winnow.Fault
import Winnow.Floating
import Winnow.Text.Digits
import Winnow.Text.Quoted

/-!
# Untyped values

Options, rule lists and policy parts may come from documents without a schema.
A `Value` is what such a document can hold; this module says which values count
as set, which read as integers and which can be listed item by item.
-/

namespace Winnow

/-- A value of a document without a schema. -/
inductive Value where
  | null
  | bool (b : Bool)
  | int (n : Int)
  | real (x : Floating)
  | text (s : String)
  | list (items : List Value)
  | mapping (entries : List (String × Value))

namespace Value

/-- The name that error messages give to the kind of a value. -/
def kindName : Value → String
  | null => "NoneType"
  | bool _ => "bool"
  | int _ => "int"
  | real _ => "float"
  | text _ => "str"
  | list _ => "list"
  | mapping _ => "dict"

/-- Null, false, zero and everything empty count as unset. -/
def isSet : Value → Bool
  | null => false
  | bool b => b
  | int n => n != 0
  | real x => !x.isZero
  | text s => !s.isEmpty
  | list items => !items.isEmpty
  | mapping entries => !entries.isEmpty

/-- The integer that a value reads as. Fractions are cut off toward zero. -/
def toInt : Value → Except Fault Int
  | bool b => .ok (if b then 1 else 0)
  | int n => .ok n
  | real x => match x.truncate? with
    | some n => .ok n
    | none => .error .infiniteInteger
  | text s => match Text.readInt? s with
    | some n => .ok n
    | none => .error .malformedInteger
  | null => .error .notNumeric
  | list _ => .error .notNumeric
  | mapping _ => .error .notNumeric

/-- The items of a value that can be listed: those of a list, the characters of
a text, the keys of a mapping. -/
def items? : Value → Option (List Value)
  | list items => some items
  | text s => some (s.toList.map fun c => text c.toString)
  | mapping entries => some (entries.map fun entry => text entry.1)
  | _ => none

/-- The text of a value used as a key. Lists and mappings cannot be keys. -/
def keyText? : Value → Option String
  | null => some "None"
  | bool b => some (if b then "True" else "False")
  | int n => some (toString n)
  | real x => some x.render
  | text s => some s
  | list _ => none
  | mapping _ => none

/-- The integer that a truth value or an integer stands for among keys. -/
def integer? : Value → Option Int
  | bool b => some (if b then 1 else 0)
  | int n => some n
  | _ => none

/-- Do two values name the same key? Numbers of equal value do, whatever their kind. -/
def sameKey : Value → Value → Bool
  | null, null => true
  | text s, text t => s == t
  | real x, real y => x.sameValue y
  | real x, w => x.sameInt w.integer?
  | v, real y => y.sameInt v.integer?
  | v, w => match v.integer?, w.integer? with
    | some m, some n => m == n
    | _, _ => false

mutual

/-- The text of a value in log lines. -/
def shown : Value → String
  | null => "None"
  | bool b => if b then "True" else "False"
  | int n => toString n
  | real x => x.render
  | text s => Text.quoted s
  | list items => "[" ++ ", ".intercalate (shownItems items) ++ "]"
  | mapping entries => "\x7b" ++ ", ".intercalate (shownEntries entries) ++ "\x7d"

/-- The texts of items. -/
def shownItems : List Value → List String
  | [] => []
  | item :: rest => shown item :: shownItems rest

/-- The texts of entries with their keys. -/
def shownEntries : List (String × Value) → List String
  | [] => []
  | (key, value) :: rest => (Text.quoted key ++ ": " ++ shown value) :: shownEntries rest

end

end Value

end Winnow
