/-!
# Floating-point values

A binary floating-point number is a sign and a dyadic magnitude, or an
infinity. Its text is the decimal with the fewest digits that rounds back to
it, positional for moderate exponents and scientific otherwise.
-/

namespace Winnow

/-- A double-precision number: `significand * 2 ^ exponent` with a sign, or an infinity. -/
inductive Floating where
  | finite (negative : Bool) (significand : Nat) (exponent : Int)
  | infinite (negative : Bool)
  deriving DecidableEq, Repr

namespace Floating

/-- Is this one of the two zeros? -/
def isZero : Floating → Bool
  | finite _ significand _ => significand == 0
  | infinite _ => false

/-- The integer part, toward zero. -/
def truncate? : Floating → Option Int
  | finite negative significand exponent =>
    let magnitude : Int :=
      if 0 ≤ exponent then (significand * Nat.pow 2 exponent.toNat : Nat)
      else (significand / Nat.pow 2 (-exponent).toNat : Nat)
    some (if negative then -magnitude else magnitude)
  | infinite _ => none

/-- Compare with an integer. -/
def sameInt : Floating → Option Int → Bool
  | finite negative significand exponent, some n =>
    let signed : Int := if negative then -(significand : Int) else significand
    if 0 ≤ exponent then signed * (Nat.pow 2 exponent.toNat : Nat) == n
    else signed == n * (Nat.pow 2 (-exponent).toNat : Nat)
  | _, _ => false

/-- Equality of values; the two zeros are equal. -/
def sameValue : Floating → Floating → Bool
  | infinite a, infinite b => a == b
  | finite a m p, finite b n q =>
    (m == 0 && n == 0) ||
      (a == b && m * Nat.pow 2 (p - min p q).toNat == n * Nat.pow 2 (q - min p q).toNat)
  | _, _ => false

/-! ## Shortest decimal -/

/-- A positive magnitude on a common denominator, with the ends of the interval
of numbers that round to it. -/
structure Interval where
  low : Nat
  value : Nat
  high : Nat
  denominator : Nat
  closed : Bool

/-- The interval of reals that round to `significand * 2 ^ exponent`. The gap
below a power of two is half as wide, unless the number is the smallest of its kind. -/
def interval (significand : Nat) (exponent : Int) : Interval :=
  let narrow := significand == Nat.pow 2 52 && exponent != -1074
  let up := if 0 ≤ exponent then Nat.pow 2 exponent.toNat else 1
  let down := if 0 ≤ exponent then 1 else Nat.pow 2 (-exponent).toNat
  { low := (4 * significand - (if narrow then 1 else 2)) * up
    value := 4 * significand * up
    high := (4 * significand + 2) * up
    denominator := 4 * down
    closed := significand % 2 == 0 }

/-- Does the decimal `digits * 10 ^ power` lie in the interval? -/
def Interval.holds (range : Interval) (digits : Nat) (power : Int) : Bool :=
  let scaled := digits * range.denominator * (if 0 ≤ power then Nat.pow 10 power.toNat else 1)
  let unit := if 0 ≤ power then 1 else Nat.pow 10 (-power).toNat
  if range.closed then range.low * unit ≤ scaled && scaled ≤ range.high * unit
  else range.low * unit < scaled && scaled < range.high * unit

/-- Twice the distance to the value, in a unit that depends only on the power. -/
def Interval.distance (range : Interval) (digits : Nat) (power : Int) : Nat :=
  let scaled := digits * range.denominator * (if 0 ≤ power then Nat.pow 10 power.toNat else 1)
  let value := range.value * (if 0 ≤ power then 1 else Nat.pow 10 (-power).toNat)
  if scaled ≤ value then value - scaled else scaled - value

/-- The multiple of `10 ^ power` just below the value. -/
def Interval.below (range : Interval) (power : Int) : Nat :=
  if 0 ≤ power then range.value / (range.denominator * Nat.pow 10 power.toNat)
  else range.value * Nat.pow 10 (-power).toNat / range.denominator

/-- The decimal on the grid of `10 ^ power` that reads back, the nearer one of two. -/
def Interval.pick? (range : Interval) (power : Int) : Option Nat :=
  let lower := range.below power
  let upper := lower + 1
  match range.holds lower power, range.holds upper power with
  | true, true =>
    if range.distance upper power < range.distance lower power then some upper
    else if range.distance upper power = range.distance lower power && lower % 2 == 1 then
      some upper
    else some lower
  | true, false => some lower
  | false, true => some upper
  | false, false => none

/-- The first grid, from coarse to fine, that holds a decimal that reads back. -/
def Interval.search (range : Interval) : Nat → Int → Nat × Int
  | 0, power => (range.below power, power)
  | fuel + 1, power =>
    match range.pick? power with
    | some digits => if digits = 0 then range.search fuel (power - 1) else (digits, power)
    | none => range.search fuel (power - 1)

/-- Drop the zeros at the end of a decimal. -/
def dropZeros : Nat → Nat → Int → Nat × Int
  | 0, digits, power => (digits, power)
  | fuel + 1, digits, power =>
    if digits != 0 && digits % 10 == 0 then dropZeros fuel (digits / 10) (power + 1)
    else (digits, power)

/-- The shortest decimal that rounds to a positive magnitude, as digits and power of ten. -/
def shortest (significand : Nat) (exponent : Int) : Nat × Int :=
  let range := interval significand exponent
  let found := range.search 700 310
  dropZeros 400 found.1 found.2

/-- The text of a positive decimal whose point stands after `point` digits:
positional when the point is near the digits, scientific otherwise. -/
def layout (digits : List Char) (point : Int) : List Char :=
  let count : Int := digits.length
  if -4 < point ∧ point ≤ 16 then
    if point ≤ 0 then '0' :: '.' :: List.replicate (-point).toNat '0' ++ digits
    else if count ≤ point then
      digits ++ List.replicate (point - count).toNat '0' ++ ['.', '0']
    else digits.take point.toNat ++ '.' :: digits.drop point.toNat
  else
    let power := point - 1
    let fraction := if digits.length ≤ 1 then [] else '.' :: digits.drop 1
    let sign := if power < 0 then '-' else '+'
    let exponent := Nat.toDigits 10 power.natAbs
    digits.take 1 ++ fraction ++ 'e' :: sign ::
      (List.replicate (2 - exponent.length) '0' ++ exponent)

/-- The text of a number. -/
def render : Floating → String
  | infinite negative => if negative then "-inf" else "inf"
  | finite negative significand exponent =>
    let magnitude :=
      if significand = 0 then "0.0".toList
      else
        let decimal := shortest significand exponent
        let digits := Nat.toDigits 10 decimal.1
        layout digits (digits.length + decimal.2)
    String.ofList (if negative then '-' :: magnitude else magnitude)

end Floating

end Winnow
