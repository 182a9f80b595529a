import CartoStyle.Decimal.Shortest

/-!
# Written forms of numbers

A `NumberForm` holds the decisions of one written form: which exponents are written out with zeros,
what stands for a missing fraction, how the values without digits are named. `Binary64.text` applies
it to the shortest digits. `NumberForm.plain` is the form of attributes, of filter expressions and
of messages.
-/

namespace CartoStyle

/-- The decisions of a written form. -/
structure NumberForm where
  tie : Tie
  /-- The exponents of the first digit that are written out with zeros; all, where none are given.
  -/
  positional : Option (Int × Int)
  /-- What is written after a number without a fraction. -/
  wholeEnding : List Char
  nan : List Char
  infinity : List Char

namespace Decimal

/-- The digits of a fraction. -/
def digitText (d : Decimal) : List Char := Nat.toDigits 10 d.digits

/-- The exponent of the first digit. -/
def leadingExponent (d : Decimal) : Int := d.digitText.length + d.exponent - 1

/-- Digits written out with a point and zeros where they are needed. -/
def positionalText (wholeEnding : List Char) (d : Decimal) : List Char :=
  let digits := d.digitText
  let places := (-d.exponent).toNat
  if 0 ≤ d.exponent then digits ++ List.replicate d.exponent.toNat '0' ++ wholeEnding
  else if places < digits.length then
    digits.take (digits.length - places) ++ '.' :: digits.drop (digits.length - places)
  else '0' :: '.' :: List.replicate (places - digits.length) '0' ++ digits

/-- Digits with a point after the first one and a signed exponent. -/
def scientificText (d : Decimal) : List Char :=
  let mantissa := match d.digitText with
    | first :: second :: rest => first :: '.' :: second :: rest
    | digits => digits
  let exponent := d.leadingExponent
  mantissa ++ 'e' :: (if exponent < 0 then '-' else '+') :: Nat.toDigits 10 exponent.natAbs

end Decimal

namespace NumberForm

/-- A fraction in this form. -/
def decimalText (form : NumberForm) (d : Decimal) : List Char :=
  let writtenOut := match form.positional with
    | none => true
    | some (low, high) => low ≤ d.leadingExponent && d.leadingExponent ≤ high
  if writtenOut then d.positionalText form.wholeEnding else d.scientificText

/-- Every number written out, whole numbers without a point. -/
def plain : NumberForm where
  tie := .upward
  positional := none
  wholeEnding := []
  nan := "NaN".toList
  infinity := "inf".toList

end NumberForm

namespace Binary64

/-- The characters of a number in a given form. -/
def chars (form : NumberForm) : Binary64 → List Char
  | .nan => form.nan
  | .infinite negative => if negative then '-' :: form.infinity else form.infinity
  | .finite negative x =>
    let digits := form.decimalText (if x = .zero then ⟨0, 0⟩ else Decimal.shortest form.tie x)
    if negative then '-' :: digits else digits

/-- A number in the plain form. -/
def text (x : Binary64) : String := String.ofList (x.chars .plain)

end Binary64

end CartoStyle
