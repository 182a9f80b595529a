import CartoStyle.Json.Literal
import CartoStyle.Proofs.Binary64.Rounding
import CartoStyle.Proofs.Decimal.Literal

/-!
# Number literals

What is read as a literal to its end is read as the same literal in front of any text that does not
go on with it (`scanLiteral_append`).

A literal whose value would be infinite has none (`Literal.isFinite_value`): the digits that are
kept fit into sixty-four bits, dividing by a power of ten makes a number no greater, and a product
beyond the format is refused.
-/

namespace CartoStyle.Json

open Text (Stops)

/-! ## Literals in front of a text -/

section Scanning

variable {text rest after : List Char} {literal : Literal}

theorem takeMinus_append (nonempty : text ≠ []) (rest : List Char) :
    takeMinus (text ++ rest) = ((takeMinus text).1, (takeMinus text).2 ++ rest) := by
  cases text with
  | nil => exact absurd rfl nonempty
  | cons c text =>
    simp only [takeMinus, List.cons_append]
    split <;> simp_all

/-- A literal after its whole part does not change if the text behind it does not go on with it. -/
theorem scanFraction_append {negative : Bool} {whole : List Char}
    (stop : Stops continuesNumber rest)
    (scanned : scanFraction negative whole text = .literal literal after) :
    scanFraction negative whole (text ++ rest) = .literal literal (after ++ rest) := by
  unfold scanFraction at scanned
  split at scanned
  · rename_i digits
    simp only [scanFraction, List.cons_append, Text.takeWhile_append (stops_isDigit stop),
      Text.dropWhile_append (stops_isDigit stop)] at scanned ⊢
    split at scanned
    · cases scanned
    · rename_i nonempty
      rw [if_neg nonempty]
      split at scanned
      · rename_i taken
        cases scanned
        rw [takeExponent_append stop taken]
      · cases scanned
  · rename_i noPoint
    split at scanned
    · rename_i taken
      cases scanned
      unfold scanFraction
      split
      · rename_i front
        cases text with
        | nil => exact absurd (stop '.' (by simp_all)) (by decide)
        | cons c text => exact absurd (by simp_all) (noPoint text)
      · rw [takeExponent_append stop taken]
    · cases scanned

theorem scanLiteral_append (stop : Stops continuesNumber rest)
    (scanned : scanLiteral text = .literal literal after) :
    scanLiteral (text ++ rest) = .literal literal (after ++ rest) := by
  have nonempty : text ≠ [] := by
    rintro rfl
    cases scanned
  simp only [scanLiteral, takeMinus_append nonempty, Text.takeWhile_append (stops_isDigit stop),
    Text.dropWhile_append (stops_isDigit stop)] at scanned ⊢
  split at scanned
  · cases scanned
  · cases scanned
  · exact scanFraction_append stop scanned

end Scanning

/-! ## Values of literals -/

namespace Literal

theorem isFinite_ofRatio {negative : Bool} {num den : Nat}
    (found : ∃ x, Magnitude.nearest? num den = some x) :
    (Binary64.ofRatio negative num den).isFinite := by
  obtain ⟨x, nearest⟩ := found
  rw [Binary64.ofRatio, nearest, Option.elim_some]
  rfl

/-- The magnitude of two to the sixty-fourth. -/
def beyondWhole : Magnitude :=
  { Magnitude.one with scale := 1086, scale_le := by decide, normal := .inr (Nat.le_refl _) }

theorem units_beyondWhole : beyondWhole.units = Nat.pow 2 64 * Magnitude.unitsPerOne := by
  decide +kernel

/-- A whole number of sixty-four bits has a nearest magnitude. -/
theorem exists_nearest?_of_lt {n : Nat} (short : n < Nat.pow 2 64) :
    ∃ x, Magnitude.nearest? n 1 = some x := by
  apply Magnitude.exists_nearest? beyondWhole Nat.one_pos
  rw [units_beyondWhole, Nat.mul_one]
  exact Nat.mul_le_mul_right _ (Nat.le_of_lt short)

theorem unitsPerOne_le_powerOfTen (exponent : Nat) :
    Magnitude.unitsPerOne ≤ (powerOfTen exponent).units := by
  rw [powerOfTen]
  cases nearest : Magnitude.nearest? (Nat.pow 10 exponent) 1 with
  | none => exact Nat.le_of_eq Magnitude.units_one.symm
  | some x =>
    exact Magnitude.unitsPerOne_le_units Nat.one_pos (Nat.pow_pos (by decide)) nearest

/-- A magnitude divided by a power of ten does not leave the format. -/
theorem isFinite_ofQuotient_powerOfTen (negative : Bool) (x : Magnitude) (exponent : Nat) :
    (Binary64.ofQuotient negative x (powerOfTen exponent)).isFinite := by
  have large := unitsPerOne_le_powerOfTen exponent
  apply isFinite_ofRatio
  apply Magnitude.exists_nearest? x (Nat.lt_of_lt_of_le Magnitude.unitsPerOne_pos large)
  exact Nat.mul_le_mul_left _ large

theorem not_nan_ofRatio (negative : Bool) (num den : Nat) :
    Binary64.ofRatio negative num den ≠ .nan := by
  rw [Binary64.ofRatio]
  cases Magnitude.nearest? num den <;> nofun

theorem isFinite_of_withinFormat {x value : Binary64} (number : x ≠ .nan)
    (within : withinFormat x = some value) : value.isFinite := by
  cases x with
  | nan => exact absurd rfl number
  | infinite negative => cases within
  | finite negative y =>
    cases within
    rfl

theorem isFinite_onMagnitude {change : Magnitude → Binary64} (finite : ∀ x, (change x).isFinite)
    {x : Binary64} (finite' : x.isFinite) : (onMagnitude change x).isFinite := by
  cases x with
  | finite negative y => exact finite y
  | _ => cases finite'

theorem isFinite_of_scaleByTen {x : Magnitude} {exponent : Int} {value : Binary64}
    (scaled : scaleByTen x exponent = some value) : value.isFinite := by
  simp only [scaleByTen] at scaled
  split_ifs at scaled
  · cases scaled
    rfl
  · exact isFinite_of_withinFormat (not_nan_ofRatio _ _ _) scaled
  · rw [← Option.some.inj scaled]
    exact isFinite_ofQuotient_powerOfTen ..
  · rw [← Option.some.inj scaled]
    exact isFinite_onMagnitude (fun part => isFinite_ofQuotient_powerOfTen false part _)
      (isFinite_ofQuotient_powerOfTen ..)
  · rw [← Option.some.inj scaled]
    rfl

theorem gatherDigits_lt {value : Nat} (short : value < Nat.pow 2 64) (digits : List Char) :
    (gatherDigits value digits).1 < Nat.pow 2 64 := by
  induction digits generalizing value with
  | nil => exact short
  | cons c rest ih =>
    simp only [gatherDigits]
    split
    · exact ih ‹_›
    · exact short

theorem isFinite_negate {x : Binary64} (finite : x.isFinite) : x.negate.isFinite := by
  cases x <;> first | rfl | cases finite

/-- The value of a literal is finite. -/
theorem isFinite_value {literal : Literal} {number : Number}
    (read : literal.number? = some number) :
    number.value.isFinite := by
  have short := gatherDigits_lt (show 0 < Nat.pow 2 64 by decide) literal.whole
  simp only [Literal.number?] at read
  split at read
  · cases read
    apply isFinite_ofRatio
    apply exists_nearest?_of_lt
    split <;> omega
  · obtain ⟨x, -, read⟩ := Option.bind_eq_some_iff.mp read
    obtain ⟨value, scaled, rfl⟩ := Option.map_eq_some_iff.mp read
    have finite := isFinite_of_scaleByTen scaled
    cases literal.negative with
    | false => exact finite
    | true => exact isFinite_negate finite

end Literal

end CartoStyle.Json
