/-!
# Draws

Chance is a list of numbers that is drawn from in a cycle. Everything made by
chance is a function of the draws, and gives what is made with the draws after it.
-/

namespace Winnow.Fuzz

/-- Numbers in a cycle, with the number of draws made. -/
structure Draws where
  cycle : Array Nat
  made : Nat := 0
  deriving Repr

/-- What is made by chance. -/
abbrev Gen := StateM Draws

namespace Draws

/-- The next number. An empty cycle gives zeros. -/
def next (draws : Draws) : Nat := draws.cycle.getD (draws.made % draws.cycle.size) 0

end Draws

namespace Gen

/-- Draw a number. -/
def draw : Gen Nat := fun draws => (draws.next, { draws with made := draws.made + 1 })

/-- A number between two bounds. -/
def between (low high : Nat) : Gen Nat := do
  return low + (← draw) % (high - low + 1)

/-- Does something with a chance of so many in a thousand come about? -/
def chance (perMille : Nat) : Gen Bool := do
  return decide ((← draw) % 1000 < perMille)

/-- One of the items of a list, or the fallback if it has none. -/
def pick {α : Type} (items : List α) (fallback : α) : Gen α := do
  return items.getD ((← draw) % items.length) fallback

/-- A text out of a list. -/
def pickText (texts : List String) : Gen String := pick texts ""

/-- So many things made one after the other. -/
def times {α : Type} (gen : Gen α) : Nat → Gen (List α)
  | 0 => pure []
  | n + 1 => do
    let first ← gen
    let rest ← times gen n
    return first :: rest

/-- A number of things between two bounds. -/
def several {α : Type} (low high : Nat) (gen : Gen α) : Gen (List α) := do
  times gen (← between low high)

/-- Swap items from the last one down to the second, each with one that does not stand after it. -/
def shuffleFrom {α : Type} (items : Array α) : Nat → Gen (Array α)
  | 0 => pure items
  | i + 1 => do
    let j := (← draw) % (i + 2)
    shuffleFrom (items.swapIfInBounds (i + 1) j) i

/-- The items of a list in an order made by chance. -/
def shuffle {α : Type} (items : List α) : Gen (List α) := do
  return (← shuffleFrom items.toArray (items.length - 1)).toList

/-- Draw from the start again. -/
def restart : Gen Unit := fun draws => ((), { draws with made := 0 })

end Gen

end Winnow.Fuzz
