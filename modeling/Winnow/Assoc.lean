/-!
# Association lists

Tables from names to values in insertion order. A name occurs once: putting a
value under a name that is present replaces it where it stands.
-/

namespace Winnow

/-- Names with values, in the order in which the names were first put. -/
abbrev Assoc (β : Type) := List (String × β)

namespace Assoc

variable {β : Type}

/-- The value under a name. -/
def find? (table : Assoc β) (name : String) : Option β :=
  (List.find? (fun entry => entry.1 == name) table).map (·.2)

/-- Is the name present? -/
def has (table : Assoc β) (name : String) : Bool :=
  List.any table fun entry => entry.1 == name

/-- The names in order. -/
def names (table : Assoc β) : List String := List.map (·.1) table

/-- Put a value under a name, in place if the name is present and last otherwise. -/
def put (name : String) (value : β) : Assoc β → Assoc β
  | [] => [(name, value)]
  | entry :: rest =>
    if entry.1 = name then (name, value) :: rest else entry :: put name value rest

/-- Remove a name. -/
def without (name : String) (table : Assoc β) : Assoc β :=
  List.filter (fun entry => entry.1 != name) table

/-- The table of a list of pairs: first positions, last values. -/
def ofPairs (pairs : List (String × β)) : Assoc β :=
  List.foldl (fun table entry => put entry.1 entry.2 table) [] pairs

/-- The table of a list of pairs when the first value under a name counts. -/
def ofPairsFirst (pairs : List (String × β)) : Assoc β :=
  List.foldl (fun table entry => if has table entry.1 then table else put entry.1 entry.2 table)
    [] pairs

end Assoc

/-- Add a member to a list that is kept free of repetitions. -/
def addMember {α : Type} [DecidableEq α] (member : α) (members : List α) : List α :=
  if members.contains member then members else members ++ [member]

/-- The members of a list without repetitions, first occurrences in order. -/
def distinct {α : Type} [DecidableEq α] (members : List α) : List α :=
  members.foldl (fun kept member => addMember member kept) []

end Winnow
