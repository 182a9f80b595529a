/-!
# Numbers of sixty-four bits

The numbers of a style are the binary interchange format of sixty-four bits. Every finite one is a
whole multiple of the least positive one, `2 ^ -1074`, so a magnitude is kept as `mantissa * 2 ^
scale` of those units. The bounds of the format and the choice of the smallest scale are part of the
type: two magnitudes are equal numbers exactly when they are equal values.

Nothing is computed with these numbers but what reading and writing them needs, so there is no
arithmetic here besides rounding (`CartoStyle.Binary64.Rounding`).
-/

namespace CartoStyle

/-- A finite number without its sign: `mantissa * 2 ^ scale` times `2 ^ -1074`. -/
structure Magnitude where
  mantissa : Nat
  scale : Nat
  mantissa_lt : mantissa < Nat.pow 2 53
  scale_le : scale ≤ 2045
  normal : scale = 0 ∨ Nat.pow 2 52 ≤ mantissa
deriving DecidableEq

namespace Magnitude

/-- The magnitude of a mantissa and a scale, where the format has it in that form. -/
def ofParts? (mantissa scale : Nat) : Option Magnitude :=
  if fits : mantissa < Nat.pow 2 53 ∧ scale ≤ 2045 ∧ (scale = 0 ∨ Nat.pow 2 52 ≤ mantissa) then
    some ⟨mantissa, scale, fits.1, fits.2.1, fits.2.2⟩
  else none

@[simp] theorem ofParts?_self (x : Magnitude) : ofParts? x.mantissa x.scale = some x := by
  simp only [ofParts?, x.mantissa_lt, x.scale_le, x.normal, and_self, dif_pos]

/-- How many units `2 ^ -1074` make one. -/
def unitsPerOne : Nat := Nat.pow 2 1074

/-- The count of units `2 ^ -1074`. -/
def units (x : Magnitude) : Nat := x.mantissa * Nat.pow 2 x.scale

def zero : Magnitude := ⟨0, 0, by decide, by decide, .inl rfl⟩

def one : Magnitude := ⟨Nat.pow 2 52, 1022, by decide, by decide, .inr (by decide)⟩

theorem units_one : one.units = unitsPerOne := by decide +kernel

end Magnitude

/-- A number: not a number at all, an infinity, or a signed magnitude. Zero has both signs. -/
inductive Binary64 where
  | nan
  | infinite (negative : Bool)
  | finite (negative : Bool) (magnitude : Magnitude)
deriving DecidableEq

namespace Binary64

def zero : Binary64 := .finite false .zero

def one : Binary64 := .finite false .one

instance : Inhabited Binary64 := ⟨zero⟩

/-- The number with the other sign. -/
def negate : Binary64 → Binary64
  | .nan => .nan
  | .infinite negative => .infinite !negative
  | .finite negative x => .finite (!negative) x

/-- Greater than zero. -/
def isPositive : Binary64 → Bool
  | .nan => false
  | .infinite negative => !negative
  | .finite negative x => !negative && x != .zero

/-- Equality of numbers: `nan` equals nothing, and the two zeros are equal. -/
def sameNumber : Binary64 → Binary64 → Bool
  | .infinite a, .infinite b => a == b
  | .finite a x, .finite b y => x == y && (a == b || x == .zero)
  | _, _ => false

/-- Neither infinite nor `nan`. -/
def isFinite : Binary64 → Bool
  | .finite _ _ => true
  | _ => false

end Binary64

end CartoStyle
