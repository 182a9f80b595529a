import CartoStyle.Binary64.Rounding

/-!
# Decimal fractions

A decimal fraction is a natural number of digits and a power of ten. `Decimal.magnitude?` rounds it
to the nearest magnitude. Powers of ten far outside the format are settled without being computed:
a fraction below `10 ^ -399` is zero and one from `10 ^ 401` on is beyond the format.
-/

namespace CartoStyle

/-- The fraction `digits * 10 ^ exponent`. -/
structure Decimal where
  digits : Nat
  exponent : Int
deriving DecidableEq, Inhabited

namespace Decimal

/-- The numerator of the fraction. -/
def num (d : Decimal) : Nat := d.digits * Nat.pow 10 d.exponent.toNat

/-- The denominator of the fraction, a power of ten. -/
def den (d : Decimal) : Nat := Nat.pow 10 (-d.exponent).toNat

theorem den_pos (d : Decimal) : 0 < d.den := Nat.pow_pos (by decide)

/-- The nearest magnitude, where the format reaches that far. -/
def magnitude? (d : Decimal) : Option Magnitude :=
  if d.digits = 0 ∨ d.exponent + d.digits.log2 + 400 < 0 then some .zero
  else if 400 < d.exponent then none
  else Magnitude.nearest? d.num d.den

end Decimal

/-- The number nearest to a signed decimal fraction. -/
def Binary64.ofDecimal (negative : Bool) (d : Decimal) : Binary64 :=
  match d.magnitude? with
  | some x => .finite negative x
  | none => .infinite negative

/-- The natural number that a row of decimal digits stands for. -/
def digitsValue (digits : List Char) : Nat :=
  digits.foldl (fun value c => 10 * value + (c.toNat - '0'.toNat)) 0

end CartoStyle
