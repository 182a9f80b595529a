import CartoStyle.Decimal.Basic

/-!
# Shortest decimal digits

A magnitude is written with the fewest digits that read back as the same magnitude, and of those
with the digits nearest to it. For one, two, … seventeen digits the two neighbours of the magnitude
on that decimal grid are tried; the first grid with a hit wins. An exact tie between the two
neighbours is left to the writer.

Seventeen digits always suffice. `shortest` ends with the exact expansion, so that it reads back for
a plainer reason.
-/

namespace CartoStyle

/-- Which of two equally near decimal fractions is taken. -/
inductive Tie where
  | upward
  | toEven
deriving DecidableEq, Repr

namespace Decimal

/-- The same fraction with no zero at the end of its digits. -/
def stripped (digits : Nat) (exponent : Int) : Decimal :=
  if _h : digits = 0 then ⟨0, 0⟩
  else if digits % 10 = 0 then stripped (digits / 10) (exponent + 1)
  else ⟨digits, exponent⟩
termination_by digits

/-- How many decimal digits a natural number has; none for zero. -/
def digitCount (n : Nat) : Nat := if n = 0 then 0 else (Nat.toDigits 10 n).length

/-- The least power of ten above a magnitude other than zero, by its exponent. -/
def order (x : Magnitude) : Int :=
  (digitCount (x.units * Nat.pow 10 400 / Magnitude.unitsPerOne) : Int) - 400

/-- The first of two fractions that reads back as `x`, with no zero at the end of its digits. -/
def readingBack? (x : Magnitude) (near far : Decimal) : Option Decimal :=
  if near.magnitude? = some x then some (stripped near.digits near.exponent)
  else if far.magnitude? = some x then some (stripped far.digits far.exponent)
  else none

/-- The fraction of at most `count` digits that is nearest to `x` among those that read back as `x`.
-/
def ofDigitCount? (tie : Tie) (x : Magnitude) (count : Nat) : Option Decimal :=
  let exponent := order x - count
  let num := x.units * Nat.pow 10 (-exponent).toNat
  let den := Magnitude.unitsPerOne * Nat.pow 10 exponent.toNat
  let lower := num / den
  let twice := 2 * (num % den)
  let down : Decimal := ⟨lower, exponent⟩
  let up : Decimal := ⟨lower + 1, exponent⟩
  if den < twice || (den == twice && (tie == .upward || lower % 2 == 1)) then
    readingBack? x up down
  else readingBack? x down up

/-- All digits of a magnitude. -/
def exact (x : Magnitude) : Decimal := stripped (x.units * Nat.pow 5 1074) (-1074)

/-- The fewest digits that read back as `x`, and of those the nearest. -/
def shortest (tie : Tie) (x : Magnitude) : Decimal :=
  ((List.range 17).findSome? fun n => ofDigitCount? tie x (n + 1)).getD (exact x)

end Decimal

end CartoStyle
