import Winnow.Text.Lowercase.Table

/-!
# Lower case

Full lower-casing of text: every cased character of every script is mapped, a
capital I with a dot above becomes two characters, and a capital sigma takes
its final form at the end of a word. `asciiLower` maps the letters A to Z only.
-/

namespace Winnow.Text

/-- The ASCII lower-case form of a character. -/
def asciiLowerChar (c : Char) : Char :=
  if 'A' ≤ c ∧ c ≤ 'Z' then Char.ofNat (c.toNat + 0x20) else c

/-- Lower-case the letters A to Z and keep everything else. -/
def asciiLower (s : String) : String := String.ofList (s.toList.map asciiLowerChar)

/-- Is a code point in one of the inclusive ranges? -/
def inRanges (ranges : List (Nat × Nat)) (n : Nat) : Bool :=
  ranges.any fun range => range.1 ≤ n && n ≤ range.2

/-- Does the run hold this code point? -/
def CaseRun.covers (run : CaseRun) (n : Nat) : Bool :=
  run.first ≤ n && n ≤ run.last && (n - run.first) % run.stride == 0

/-- The lower-case form of a character on its own. -/
def lowerChar (c : Char) : List Char :=
  if c.toNat < 0x80 then [asciiLowerChar c]
  else if c.toNat = 0x130 then ['i', Char.ofNat 0x307]
  else match caseRuns.find? (·.covers c.toNat) with
    | some run => [Char.ofNat (c.toNat + run.offset).toNat]
    | none => [c]

/-- Characters that are passed over on the way from a sigma to its neighbours. -/
def isCaseIgnorable (c : Char) : Bool := inRanges caseIgnorableRanges c.toNat

/-- Characters that have case and are not passed over. -/
def isCased (c : Char) : Bool := inRanges casedRanges c.toNat

/-- Is the nearest character that is not passed over a cased one? -/
def nextIsCased (cs : List Char) : Bool :=
  match cs.dropWhile isCaseIgnorable with
  | [] => false
  | c :: _ => isCased c

/-- The capital sigma, whose lower-case form depends on its neighbours. -/
def capitalSigma : Char := Char.ofNat 0x3a3

/-- Lower-case `cs`, given the characters before it with the nearest first. -/
def lowerAfter (before : List Char) : List Char → List Char
  | [] => []
  | c :: cs =>
    let lowered :=
      if c = capitalSigma then
        [Char.ofNat (if nextIsCased before && !nextIsCased cs then 0x3c2 else 0x3c3)]
      else lowerChar c
    lowered ++ lowerAfter (c :: before) cs

/-- The lower-case form of a text. -/
def lowerChars (cs : List Char) : List Char := lowerAfter [] cs

/-- The lower-case form of a string. -/
def lower (s : String) : String := String.ofList (lowerChars s.toList)

end Winnow.Text
