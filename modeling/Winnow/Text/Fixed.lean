/-!
# Fixed places

Numbers with a fixed number of places after the point. A quotient is first
rounded to 53 binary digits and then to the places, each time to the nearest,
and to the even one of two neighbours that are equally near.
-/

namespace Winnow.Text

/-- A quotient rounded to the nearest integer, to the even one of two. -/
def roundDiv (num den : Nat) : Nat :=
  let q := num / den
  let r := num % den
  if den < 2 * r || (2 * r = den && q % 2 = 1) then q + 1 else q

/-- A number of units of the last of so many places. -/
def fixedUnits (places units : Nat) : String :=
  let digits := Nat.toDigits 10 units
  let digits := List.replicate (places + 1 - digits.length) '0' ++ digits
  String.ofList (digits.take (digits.length - places) ++
    '.' :: digits.drop (digits.length - places))

/-- An integer with so many places. -/
def fixed (places n : Nat) : String := fixedUnits places (n * Nat.pow 10 places)

/-- A quotient on the grid of its 53 binary digits: a numerator, and the power of two
below it. Quotients of 2 ^ 53 and more are on the grid of the integers. -/
def binaryQuotient (num den : Nat) : Nat × Nat :=
  let guess := 53 + den.log2 - num.log2
  let shift := if num * Nat.pow 2 guess / den < Nat.pow 2 53 then guess else guess - 1
  (roundDiv (num * Nat.pow 2 shift) den, shift)

/-- The quotient of an integer and a positive number with so many places. -/
def fixedRatio (places : Nat) (num : Int) (den : Nat) : String :=
  let (n, shift) := binaryQuotient num.natAbs den
  let text := fixedUnits places (roundDiv (n * Nat.pow 10 places) (Nat.pow 2 shift))
  if num < 0 then "-" ++ text else text

end Winnow.Text
