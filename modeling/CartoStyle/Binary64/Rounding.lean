import CartoStyle.Binary64.Basic

/-!
# Rounding to the nearest number

A quotient of natural numbers is rounded to the nearest magnitude, a half to the even mantissa. The
quotient is counted in units of `2 ^ -1074`; of that count the upper fifty-three bits are kept, and
all of it where it has no more. Products and quotients of numbers are rounded quotients too.
-/

namespace CartoStyle

/-- The natural number nearest to a quotient; a half goes to the even neighbour. -/
def roundHalfEven (num den : Nat) : Nat :=
  let floor := num / den
  let twice := 2 * (num % den)
  if twice < den then floor
  else if den < twice then floor + 1
  else if floor % 2 == 0 then floor else floor + 1

theorem roundHalfEven_exact (n : Nat) {den : Nat} (positive : 0 < den) :
    roundHalfEven (n * den) den = n := by
  simp [roundHalfEven, Nat.mul_div_cancel n positive, positive]

namespace Magnitude

/-- The magnitude nearest to a quotient, where the format reaches that far. -/
def nearest? (num den : Nat) : Option Magnitude :=
  let count := num * unitsPerOne
  let scale := (count / den).log2 + 1 - 53
  let mantissa := roundHalfEven count (den * Nat.pow 2 scale)
  if mantissa == Nat.pow 2 53 then ofParts? (Nat.pow 2 52) (scale + 1) else ofParts? mantissa scale

end Magnitude

namespace Binary64

/-- The number nearest to a signed quotient; beyond the format it is infinite. -/
def ofRatio (negative : Bool) (num den : Nat) : Binary64 :=
  (Magnitude.nearest? num den).elim (.infinite negative) (.finite negative)

/-- The number nearest to a whole number. -/
def ofInt (n : Int) : Binary64 := ofRatio (n < 0) n.natAbs 1

/-- A product of magnitudes, rounded. -/
def ofProduct (negative : Bool) (x y : Magnitude) : Binary64 :=
  ofRatio negative (x.units * y.units) (Magnitude.unitsPerOne * Magnitude.unitsPerOne)

/-- A quotient of magnitudes, rounded. -/
def ofQuotient (negative : Bool) (x y : Magnitude) : Binary64 :=
  ofRatio negative x.units y.units

end Binary64

end CartoStyle
