import CartoStyle.Decimal.Literal
import CartoStyle.Json.Basic
import CartoStyle.Json.Text

/-!
# Number literals of JSON

A literal that is only skipped need not have a value; one that is read must not go beyond the
format.

A fraction is read in two roundings: of the digits, as many as fit into sixty-four bits are kept and
rounded to a number, which is then multiplied or divided by a rounded power of ten. For literals of
few digits and small exponents both roundings are exact but one, and the result is the nearest
number.
-/

namespace CartoStyle.Json

/-- The parts of a number literal. -/
structure Literal where
  negative : Bool
  whole : List Char
  /-- The digits after the point, at least one where there is a point. -/
  fraction : List Char
  /-- The exponent, where it is given. -/
  exponent : Option Int
deriving DecidableEq

/-- What the front of a text is, read as a number literal. -/
inductive LiteralScan where
  | literal (literal : Literal) (rest : List Char)
  /-- A literal cut short: the fault of reading it, and that of skipping it. -/
  | broken (read skipped : Fault)
deriving DecidableEq

/-- The faults of a literal where digits are missing: reading notices that the document has ended,
skipping does not. -/
def missingDigits (rest : List Char) : LiteralScan :=
  .broken (if rest.isEmpty then .incomplete else .malformed) .malformed

/-- A literal whose whole part has been read. -/
def scanFraction (negative : Bool) (whole : List Char) (text : List Char) : LiteralScan :=
  match text with
  | '.' :: rest =>
    let fraction := rest.takeWhile Char.isDigit
    let after := rest.dropWhile Char.isDigit
    if fraction.isEmpty then missingDigits after
    else match takeExponent after with
      | .ok (exponent, rest) => .literal ⟨negative, whole, fraction, exponent⟩ rest
      | .error rest => missingDigits rest
  | text =>
    match takeExponent text with
    | .ok (exponent, rest) => .literal ⟨negative, whole, [], exponent⟩ rest
    | .error rest => missingDigits rest

/-- A text without a leading minus, and whether there was one. -/
def takeMinus : List Char → Bool × List Char
  | '-' :: rest => (true, rest)
  | text => (false, text)

/-- The number literal at the front of a text. A zero in front of other digits is malformed. -/
def scanLiteral (text : List Char) : LiteralScan :=
  let (negative, unsigned) := takeMinus text
  let after := unsigned.dropWhile Char.isDigit
  match unsigned.takeWhile Char.isDigit with
  | [] => missingDigits after
  | '0' :: _ :: _ => .broken .malformed .malformed
  | whole => scanFraction negative whole after

private theorem length_scanFraction_le {negative : Bool} {whole text rest : List Char}
    {literal : Literal} (found : scanFraction negative whole text = .literal literal rest) :
    rest.length ≤ text.length := by
  unfold scanFraction at found
  split at found
  · rename_i tail
    simp only at found
    split at found
    · simp [missingDigits] at found
    · split at found
      · rename_i read
        cases found
        have := length_takeExponent_le read
        have := (List.dropWhile_suffix (l := tail) Char.isDigit).length_le
        simp only [List.length_cons]
        omega
      · simp [missingDigits] at found
  · split at found
    · rename_i read
      cases found
      exact length_takeExponent_le read
    · simp [missingDigits] at found

theorem length_scanLiteral_lt {text rest : List Char} {literal : Literal}
    (found : scanLiteral text = .literal literal rest) : rest.length < text.length := by
  unfold scanLiteral at found
  simp only at found
  split at found
  · simp [missingDigits] at found
  · simp at found
  · rename_i nonempty _
    have tail := length_scanFraction_le found
    have digits := length_dropWhile_lt (List.isEmpty_eq_false_iff.mpr nonempty)
    have unsigned : (takeMinus text).2.length ≤ text.length := by
      unfold takeMinus
      split <;> simp
    omega

/-! ## The value of a literal -/

/-- The first digits, as long as they fit into sixty-four bits behind those before them, and how
many digits are left. -/
def gatherDigits (value : Nat) : List Char → Nat × Nat
  | [] => (value, 0)
  | c :: rest =>
    let longer := 10 * value + (c.toNat - '0'.toNat)
    if longer < Nat.pow 2 64 then gatherDigits longer rest else (value, rest.length + 1)

/-- The power of ten with an exponent that the format reaches. -/
def powerOfTen (exponent : Nat) : Magnitude :=
  (Magnitude.nearest? (Nat.pow 10 exponent) 1).getD .one

/-- A number, unless it is beyond the format. -/
def withinFormat : Binary64 → Option Binary64
  | .infinite _ => none
  | value => some value

/-- What becomes of the magnitude of a number, if it has one. -/
def onMagnitude (change : Magnitude → Binary64) : Binary64 → Binary64
  | .finite _ x => change x
  | other => other

/-- A number times a power of ten, each step rounded; none beyond the format. -/
def scaleByTen (x : Magnitude) (exponent : Int) : Option Binary64 :=
  let size := exponent.natAbs
  if x = .zero then some .zero
  else if 0 ≤ exponent then
    if size ≤ 308 then withinFormat (.ofProduct false x (powerOfTen size)) else none
  else if size ≤ 308 then some (.ofQuotient false x (powerOfTen size))
  else if size ≤ 616 then
    some (onMagnitude (fun part => .ofQuotient false part (powerOfTen (size - 308)))
      (.ofQuotient false x (powerOfTen 308)))
  else some .zero

namespace Literal

/-- The value of a literal; none beyond the format. -/
def number? (literal : Literal) : Option Number :=
  let (wholeDigits, dropped) := gatherDigits 0 literal.whole
  if dropped = 0 ∧ literal.fraction = [] ∧ literal.exponent = none ∧
      (literal.negative = false ∨ (wholeDigits ≠ 0 ∧ wholeDigits ≤ Nat.pow 2 63)) then
    some (.whole (if literal.negative then -wholeDigits else wholeDigits))
  else
    let (digits, left) := gatherDigits wholeDigits literal.fraction
    let exponent : Int := literal.exponent.getD 0 + dropped - (literal.fraction.length - left : Nat)
    (Magnitude.nearest? digits 1).bind fun x =>
      (scaleByTen x exponent).map fun value =>
        .fraction (if literal.negative then value.negate else value)

end Literal

end CartoStyle.Json
