import CartoStyle.Proofs.Decimal.Shortest

/-!
# Rounding stays within the format

Rounding to the nearest number is monotone where it matters: a quotient that is no greater than some
magnitude has a nearest one (`Magnitude.exists_nearest?`), and the magnitude nearest to a quotient
of at least one is at least one (`Magnitude.unitsPerOne_le_units`). Rounding goes up by one part in
`2 ^ 53` at most (`Magnitude.units_mul_le_of_nearest?`), and a whole number of at most fifty-three
bits is not rounded at all (`Magnitude.exists_units_eq`).
-/

namespace CartoStyle

variable {num den bound : Nat}

theorem roundHalfEven_le (positive : 0 < den) (within : num ≤ bound * den) :
    roundHalfEven num den ≤ bound := by
  have split := Nat.div_add_mod num den
  by_cases below : num / den < bound
  · simp only [roundHalfEven]
    split_ifs <;> omega
  · have quotient : num / den = bound := by
      have := Nat.div_le_of_le_mul (Nat.mul_comm bound den ▸ within)
      omega
    have rest : num % den = 0 := by
      rw [quotient, Nat.mul_comm] at split
      omega
    simp [roundHalfEven, rest, quotient, positive]

theorem le_roundHalfEven (positive : 0 < den) (beyond : bound * den ≤ num) :
    bound ≤ roundHalfEven num den := by
  have quotient : bound ≤ num / den := (Nat.le_div_iff_mul_le positive).mpr beyond
  simp only [roundHalfEven]
  split_ifs <;> omega

/-- Rounding takes away half a unit at most. -/
theorem two_mul_le_roundHalfEven (positive : 0 < den) :
    2 * num ≤ (2 * roundHalfEven num den + 1) * den := by
  have split := Nat.div_add_mod num den
  have rest := Nat.mod_lt num positive
  have unit : (2 * (num / den) + 1) * den = 2 * (den * (num / den)) + den := by ring
  have next : (2 * (num / den + 1) + 1) * den = 2 * (den * (num / den)) + den + 2 * den := by ring
  simp only [roundHalfEven]
  split_ifs <;> omega

/-- Rounding adds half a unit at most. -/
theorem two_mul_roundHalfEven_le (num den : Nat) :
    2 * (roundHalfEven num den * den) ≤ 2 * num + den := by
  have split := Nat.div_add_mod num den
  have unit : num / den * den = den * (num / den) := Nat.mul_comm ..
  have next : (num / den + 1) * den = den * (num / den) + den := by ring
  simp only [roundHalfEven]
  split_ifs <;> omega

namespace Magnitude

/-- The scale of the magnitude nearest to a quotient, if rounding does not carry. -/
def scaleOf (num den : Nat) : Nat := (num * unitsPerOne / den).log2 + 1 - 53

/-- The mantissa of the magnitude nearest to a quotient, if rounding does not carry. -/
def mantissaOf (num den : Nat) : Nat :=
  roundHalfEven (num * unitsPerOne) (den * Nat.pow 2 (scaleOf num den))

theorem nearest?_eq (num den : Nat) :
    nearest? num den = if mantissaOf num den = Nat.pow 2 53
      then ofParts? (Nat.pow 2 52) (scaleOf num den + 1)
      else ofParts? (mantissaOf num den) (scaleOf num den) := by
  rw [nearest?, mantissaOf, scaleOf]
  split <;> rename_i carried <;> simp_all

theorem mantissaOf_le (positive : 0 < den) : mantissaOf num den ≤ Nat.pow 2 53 := by
  apply roundHalfEven_le (Nat.mul_pos positive (Nat.two_pow_pos _))
  have short : num * unitsPerOne / den < 2 ^ (53 + scaleOf num den) := by
    apply Nat.lt_of_lt_of_le Nat.lt_log2_self
    apply Nat.pow_le_pow_right (by decide)
    rw [scaleOf]
    omega
  have within := Nat.le_of_lt ((Nat.div_lt_iff_lt_mul positive).mp short)
  calc num * unitsPerOne
      ≤ 2 ^ (53 + scaleOf num den) * den := within
    _ = Nat.pow 2 53 * (den * Nat.pow 2 (scaleOf num den)) := by
      rw [Nat.pow_add]
      simp only [Nat.pow_eq]
      ring

/-- What is left of a quotient is at least its leading bit. -/
theorem two_pow_log2_le (positive : 0 < den) (nonzero : num * unitsPerOne / den ≠ 0) :
    2 ^ (num * unitsPerOne / den).log2 ≤ mantissaOf num den * Nat.pow 2 (scaleOf num den) := by
  have leading := (Nat.le_div_iff_mul_le positive).mp (Nat.log2_self_le nonzero)
  obtain ⟨rest, bits⟩ : ∃ rest, (num * unitsPerOne / den).log2 = rest + scaleOf num den :=
    ⟨(num * unitsPerOne / den).log2 - scaleOf num den, by rw [scaleOf]; omega⟩
  have mantissa : 2 ^ rest ≤ mantissaOf num den := by
    apply le_roundHalfEven (Nat.mul_pos positive (Nat.two_pow_pos _))
    calc 2 ^ rest * (den * Nat.pow 2 (scaleOf num den))
        = 2 ^ (rest + scaleOf num den) * den := by
          rw [Nat.pow_add]
          simp only [Nat.pow_eq]
          ring
      _ ≤ num * unitsPerOne := by rwa [bits] at leading
  rw [bits, Nat.pow_add]
  exact Nat.mul_le_mul_right _ mantissa

theorem normal_mantissaOf (positive : 0 < den) :
    scaleOf num den = 0 ∨ Nat.pow 2 52 ≤ mantissaOf num den := by
  by_cases scaled : scaleOf num den = 0
  · exact .inl scaled
  · refine .inr ?_
    have bits : (num * unitsPerOne / den).log2 = 52 + scaleOf num den := by
      rw [scaleOf] at scaled ⊢
      omega
    have nonzero : num * unitsPerOne / den ≠ 0 := by
      intro zero
      rw [zero, Nat.log2_zero] at bits
      omega
    have leading := two_pow_log2_le positive nonzero
    rw [bits, Nat.pow_add] at leading
    exact Nat.le_of_mul_le_mul_right leading (Nat.two_pow_pos _)

/-- A quotient no greater than a magnitude does not leave the format. -/
theorem exists_nearest? (x : Magnitude) (positive : 0 < den)
    (within : num * unitsPerOne ≤ x.units * den) : ∃ y, nearest? num den = some y := by
  have quotient : num * unitsPerOne / den ≤ x.units := by
    rw [Nat.mul_comm x.units] at within
    exact Nat.div_le_of_le_mul within
  have scale : scaleOf num den ≤ x.scale := by
    have own := log2_units x
    rw [scaleOf, ← own]
    by_cases vanishes : num * unitsPerOne / den = 0
    · simp [vanishes]
    · have nonzero : x.units ≠ 0 :=
        Nat.pos_iff_ne_zero.mp (Nat.lt_of_lt_of_le (Nat.pos_iff_ne_zero.mpr vanishes) quotient)
      have bits : (num * unitsPerOne / den).log2 ≤ x.units.log2 :=
        (Nat.le_log2 nonzero).mpr (Nat.le_trans (Nat.log2_self_le vanishes) quotient)
      omega
  have small := x.scale_le
  rw [nearest?_eq]
  by_cases carried : mantissaOf num den = Nat.pow 2 53
  · -- The mantissa of `x` does not carry, so the scale of the quotient is less.
    have less : scaleOf num den < x.scale := by
      apply Nat.lt_of_le_of_ne scale
      intro same
      have bound : mantissaOf num den ≤ x.mantissa := by
        apply roundHalfEven_le (Nat.mul_pos positive (Nat.two_pow_pos _))
        rw [same]
        calc num * unitsPerOne
            ≤ x.units * den := within
          _ = x.mantissa * (den * Nat.pow 2 x.scale) := by
            rw [units]
            ring
      have := x.mantissa_lt
      omega
    rw [if_pos carried, ofParts?, dif_pos ⟨by decide, by omega, .inr (Nat.le_refl _)⟩]
    exact ⟨_, rfl⟩
  · have : mantissaOf num den ≤ Nat.pow 2 53 := mantissaOf_le positive
    rw [if_neg carried, ofParts?, dif_pos ⟨by omega, by omega, normal_mantissaOf positive⟩]
    exact ⟨_, rfl⟩

theorem units_of_ofParts? {mantissa scale : Nat} {x : Magnitude}
    (made : ofParts? mantissa scale = some x) : x.units = mantissa * Nat.pow 2 scale := by
  rw [ofParts?] at made
  split at made
  · cases made
    rfl
  · cases made

/-- The nearest magnitude has the units of the rounded mantissa, also where that carries. -/
theorem units_of_nearest? {x : Magnitude} (nearest : nearest? num den = some x) :
    x.units = mantissaOf num den * Nat.pow 2 (scaleOf num den) := by
  rw [nearest?_eq] at nearest
  split at nearest
  · rename_i carried
    rw [units_of_ofParts? nearest, carried]
    simp only [Nat.pow_eq]
    ring
  · exact units_of_ofParts? nearest

theorem scaleOf_le {x : Magnitude} (nearest : nearest? num den = some x) :
    scaleOf num den ≤ x.scale := by
  have scale {mantissa scale : Nat} (made : ofParts? mantissa scale = some x) :
      x.scale = scale := by
    rw [ofParts?] at made
    split at made
    · cases made
      rfl
    · cases made
  rw [nearest?_eq] at nearest
  split at nearest
  · rw [scale nearest]
    exact Nat.le_succ _
  · exact Nat.le_of_eq (scale nearest).symm

theorem two_pow_le_units {bits : Nat} {x : Magnitude} (positive : 0 < den)
    (large : 2 ^ bits ≤ num * unitsPerOne / den) (nearest : nearest? num den = some x) :
    2 ^ bits ≤ x.units := by
  have nonzero : num * unitsPerOne / den ≠ 0 := by
    have := Nat.two_pow_pos bits
    omega
  have longer : bits ≤ (num * unitsPerOne / den).log2 := (Nat.le_log2 nonzero).mpr large
  rw [units_of_nearest? nearest]
  exact Nat.le_trans (Nat.pow_le_pow_right (by decide) longer) (two_pow_log2_le positive nonzero)

theorem exists_unitsPerOne_eq : ∃ bits, unitsPerOne = 2 ^ bits := by
  unfold unitsPerOne
  generalize 1074 = bits
  exact ⟨bits, Nat.pow_eq⟩

/-- The magnitude nearest to a quotient of at least one is at least one. -/
theorem unitsPerOne_le_units {x : Magnitude} (positive : 0 < den) (large : den ≤ num)
    (nearest : nearest? num den = some x) : unitsPerOne ≤ x.units := by
  have quotient : unitsPerOne ≤ num * unitsPerOne / den := by
    rw [Nat.le_div_iff_mul_le positive, Nat.mul_comm]
    exact Nat.mul_le_mul_right _ large
  obtain ⟨bits, one⟩ := exists_unitsPerOne_eq
  have leading : 2 ^ bits ≤ x.units := two_pow_le_units positive (one ▸ quotient) nearest
  rwa [one]

/-! ## How far rounding goes -/

/-- A quotient is at most half a step above the magnitude nearest to it. -/
theorem two_mul_le_of_nearest? {x : Magnitude} (positive : 0 < den)
    (nearest : nearest? num den = some x) :
    2 * (num * unitsPerOne) ≤ (2 * x.mantissa + 1) * Nat.pow 2 x.scale * den := by
  have step : Nat.pow 2 (scaleOf num den) ≤ Nat.pow 2 x.scale :=
    Nat.pow_le_pow_right (by decide) (scaleOf_le nearest)
  have same : x.mantissa * Nat.pow 2 x.scale =
      mantissaOf num den * Nat.pow 2 (scaleOf num den) := units_of_nearest? nearest
  calc 2 * (num * unitsPerOne)
      ≤ (2 * mantissaOf num den + 1) * (den * Nat.pow 2 (scaleOf num den)) :=
        two_mul_le_roundHalfEven (Nat.mul_pos positive (Nat.two_pow_pos _))
    _ = (2 * (mantissaOf num den * Nat.pow 2 (scaleOf num den)) +
          Nat.pow 2 (scaleOf num den)) * den := by ring
    _ ≤ (2 * (x.mantissa * Nat.pow 2 x.scale) + Nat.pow 2 x.scale) * den := by
      rw [← same]
      exact Nat.mul_le_mul_right _ (Nat.add_le_add_left step _)
    _ = (2 * x.mantissa + 1) * Nat.pow 2 x.scale * den := by ring

/-- A quotient of at least one has fifty-three bits in front of what is rounded away. -/
theorem two_pow_scaleOf_le (positive : 0 < den) (large : den ≤ num) :
    den * Nat.pow 2 (scaleOf num den) * 2 ^ 52 ≤ num * unitsPerOne := by
  by_cases scaled : scaleOf num den = 0
  · have bits : 2 ^ 52 ≤ unitsPerOne := by decide +kernel
    rw [scaled, Nat.pow_eq, Nat.pow_zero, Nat.mul_one]
    exact Nat.mul_le_mul large bits
  · have bits : (num * unitsPerOne / den).log2 = 52 + scaleOf num den := by
      rw [scaleOf] at scaled ⊢
      omega
    have nonzero : num * unitsPerOne / den ≠ 0 := by
      intro zero
      rw [zero, Nat.log2_zero] at bits
      omega
    have leading := (Nat.le_div_iff_mul_le positive).mp (Nat.log2_self_le nonzero)
    rw [bits, Nat.pow_add] at leading
    calc den * Nat.pow 2 (scaleOf num den) * 2 ^ 52
        = 2 ^ 52 * 2 ^ scaleOf num den * den := by
          simp only [Nat.pow_eq]
          ring
      _ ≤ num * unitsPerOne := leading

/-- Rounding a quotient of at least one adds one part in `2 ^ 53` at most. -/
theorem units_mul_le_of_nearest? {x : Magnitude} (positive : 0 < den) (large : den ≤ num)
    (nearest : nearest? num den = some x) :
    x.units * den * 2 ^ 53 ≤ num * unitsPerOne * (2 ^ 53 + 1) := by
  have half : 2 * (mantissaOf num den * (den * Nat.pow 2 (scaleOf num den))) ≤
      2 * (num * unitsPerOne) + den * Nat.pow 2 (scaleOf num den) :=
    two_mul_roundHalfEven_le _ _
  calc x.units * den * 2 ^ 53
      = 2 * (mantissaOf num den * (den * Nat.pow 2 (scaleOf num den))) * 2 ^ 52 := by
        rw [units_of_nearest? nearest]
        ring
    _ ≤ (2 * (num * unitsPerOne) + den * Nat.pow 2 (scaleOf num den)) * 2 ^ 52 :=
        Nat.mul_le_mul_right _ half
    _ = 2 ^ 53 * (num * unitsPerOne) + den * Nat.pow 2 (scaleOf num den) * 2 ^ 52 := by ring
    _ ≤ 2 ^ 53 * (num * unitsPerOne) + num * unitsPerOne :=
        Nat.add_le_add_left (two_pow_scaleOf_le positive large) _
    _ = num * unitsPerOne * (2 ^ 53 + 1) := by ring

/-! ## Numbers of few digits -/

/-- A whole number of at most fifty-three bits is a magnitude. -/
theorem exists_units_eq {n : Nat} (short : n < 2 ^ 53) :
    ∃ x : Magnitude, x.units = n * unitsPerOne := by
  by_cases zero : n = 0
  · exact ⟨.zero, by rw [zero, Nat.zero_mul]; rfl⟩
  · have bits : n.log2 ≤ 52 := Nat.le_of_lt_succ ((Nat.log2_lt zero).mpr short)
    have upper : n * 2 ^ (52 - n.log2) < Nat.pow 2 53 := by
      calc n * 2 ^ (52 - n.log2) < 2 ^ (n.log2 + 1) * 2 ^ (52 - n.log2) :=
            Nat.mul_lt_mul_of_pos_right Nat.lt_log2_self (Nat.two_pow_pos _)
        _ = 2 ^ (n.log2 + 1 + (52 - n.log2)) := (Nat.pow_add ..).symm
        _ = Nat.pow 2 53 := by rw [show n.log2 + 1 + (52 - n.log2) = 53 by omega]; rfl
    have lower : Nat.pow 2 52 ≤ n * 2 ^ (52 - n.log2) := by
      calc Nat.pow 2 52 = 2 ^ (n.log2 + (52 - n.log2)) := by
            rw [show n.log2 + (52 - n.log2) = 52 by omega]; rfl
        _ = 2 ^ n.log2 * 2 ^ (52 - n.log2) := Nat.pow_add ..
        _ ≤ n * 2 ^ (52 - n.log2) := Nat.mul_le_mul_right _ (Nat.log2_self_le zero)
    have sum : 1074 = 52 - n.log2 + (1022 + n.log2) := by omega
    have split : unitsPerOne = 2 ^ (52 - n.log2) * 2 ^ (1022 + n.log2) := by
      rw [unitsPerOne, sum]
      exact Nat.pow_add ..
    exact ⟨⟨_, 1022 + n.log2, upper, by omega, .inr lower⟩, by rw [split, ← Nat.mul_assoc]; rfl⟩

/-- A count of units is nearest to itself. -/
theorem nearest?_of_units_eq {n : Nat} {x : Magnitude} (exact : x.units = n * unitsPerOne) :
    nearest? n 1 = some x := by
  rw [← nearest?_units x, exact]
  exact nearest?_congr Nat.one_pos unitsPerOne_pos (by rw [Nat.mul_one])

end Magnitude

end CartoStyle
