import CartoStyle.Proofs.Json.Numbers

/-!
# Numbers of few digits are kept

Reading a fraction of JSON rounds its digits, a power of ten and then their quotient or product. If
the digits are less than `2 ^ 53` and the exponent is at most twenty-two, then digits and power are
numbers themselves, and only one rounding is left: the value is the number nearest to the literal
(`Literal.number?_of_isShort`). A number whose literal is as short is read back from it
(`Number.isKept_of_isShort`).
-/

namespace CartoStyle.Json

/-- The powers of ten up to twenty-two are numbers. -/
theorem units_powerOfTen : ∀ exponent ≤ 22,
    (powerOfTen exponent).units = 10 ^ exponent * Magnitude.unitsPerOne := by
  decide +kernel

theorem le_ofDigitChars (value : Nat) (digits : List Char) :
    value ≤ Nat.ofDigitChars 10 digits value := by
  induction digits generalizing value with
  | nil => exact Nat.le_refl _
  | cons c rest ih =>
    rw [Nat.ofDigitChars_cons]
    exact Nat.le_trans (by omega) (ih _)

/-- Digits that fit into sixty-four bits are all kept. -/
theorem gatherDigits_of_lt {value : Nat} {digits : List Char}
    (short : Nat.ofDigitChars 10 digits value < Nat.pow 2 64) :
    gatherDigits value digits = (Nat.ofDigitChars 10 digits value, 0) := by
  induction digits generalizing value with
  | nil => rfl
  | cons c rest ih =>
    rw [Nat.ofDigitChars_cons] at short
    have longer : 10 * value + (c.toNat - '0'.toNat) < Nat.pow 2 64 :=
      Nat.lt_of_le_of_lt (le_ofDigitChars _ _) short
    rw [gatherDigits, if_pos longer, ih short, Nat.ofDigitChars_cons]

theorem gatherDigits_left_le (value : Nat) (digits : List Char) :
    (gatherDigits value digits).2 ≤ digits.length := by
  induction digits generalizing value with
  | nil => exact Nat.le_refl _
  | cons c rest ih =>
    simp only [gatherDigits]
    split
    · exact Nat.le_succ_of_le (ih _)
    · exact Nat.le_refl _

/-- Digits and a power of ten that are numbers are multiplied or divided in one rounding. -/
theorem scaleByTen_of_units_eq {d : Decimal} {x y : Magnitude}
    (exact : x.units = d.digits * Magnitude.unitsPerOne) (small : d.exponent.natAbs ≤ 22)
    (nearest : d.magnitude? = some y) : scaleByTen x d.exponent = some (.finite false y) := by
  have one := Magnitude.unitsPerOne_pos
  have power := units_powerOfTen _ small
  simp only [scaleByTen]
  split_ifs with zero whole
  · have zero : d.digits = 0 := by
      rw [zero] at exact
      exact (Nat.mul_eq_zero.mp exact.symm).resolve_right (Nat.ne_of_gt one)
    rw [Decimal.magnitude?, if_pos (.inl zero)] at nearest
    rw [← Option.some.inj nearest]
    rfl
  · rw [Decimal.magnitude?_eq_nearest?] at nearest
    have product : Magnitude.nearest? (x.units * (powerOfTen d.exponent.natAbs).units)
        (Magnitude.unitsPerOne * Magnitude.unitsPerOne) = some y := by
      rw [← nearest]
      apply Magnitude.nearest?_congr (Nat.mul_pos one one) d.den_pos
      rw [exact, power, Decimal.num, Decimal.den, show (-d.exponent).toNat = 0 by omega,
        show d.exponent.toNat = d.exponent.natAbs by omega]
      simp only [Nat.pow_eq]
      ring
    rw [Binary64.ofProduct, Binary64.ofRatio, product]
    rfl
  · omega
  · rw [Decimal.magnitude?_eq_nearest?] at nearest
    have quotient : Magnitude.nearest? x.units (powerOfTen d.exponent.natAbs).units = some y := by
      rw [← nearest]
      apply Magnitude.nearest?_congr _ d.den_pos
      · rw [exact, power, Decimal.num, Decimal.den, show d.exponent.toNat = 0 by omega,
          show (-d.exponent).toNat = d.exponent.natAbs by omega]
        simp only [Nat.pow_eq]
        ring
      · rw [power]
        exact Nat.mul_pos (Nat.pow_pos (by decide)) one
    rw [Binary64.ofQuotient, Binary64.ofRatio, quotient]
    rfl
  all_goals omega

namespace Literal

variable {literal : Literal}

/-- The digits of a literal that are kept, and how many are left. -/
def gathered (literal : Literal) : Nat × Nat :=
  let (value, dropped) := gatherDigits 0 literal.whole
  let (digits, left) := gatherDigits value literal.fraction
  (digits, dropped + left)

/-- A literal with a point or an exponent is read in two roundings. -/
theorem number?_of_isBroken (broken : literal.isBroken) :
    literal.number? = (Magnitude.nearest? literal.gathered.1 1).bind fun x =>
      (scaleByTen x (literal.decimal.exponent + literal.gathered.2)).map fun value =>
        .fraction (if literal.negative then value.negate else value) := by
  have fraction : ¬(literal.fraction = [] ∧ literal.exponent = none) := by
    rintro ⟨blank, absent⟩
    rw [isBroken, blank, absent] at broken
    cases broken
  have inside := gatherDigits_left_le (gatherDigits 0 literal.whole).1 literal.fraction
  rw [number?]
  simp only [gathered, decimal]
  rw [if_neg fun plain => fraction ⟨plain.2.1, plain.2.2.1⟩]
  congr 3
  funext x
  congr 2
  omega

/-- A literal with a point or an exponent is read as a fraction. -/
theorem eq_fraction_of_isBroken {number : Number} (broken : literal.isBroken)
    (read : literal.number? = some number) : ∃ value, number = .fraction value := by
  rw [number?_of_isBroken broken] at read
  obtain ⟨x, -, read⟩ := Option.bind_eq_some_iff.mp read
  obtain ⟨value, -, rfl⟩ := Option.map_eq_some_iff.mp read
  exact ⟨_, rfl⟩

/-- Less than `2 ^ 53` in digits, and an exponent of at most twenty-two. -/
def isShort (literal : Literal) : Bool :=
  literal.decimal.digits < 2 ^ 53 && literal.decimal.exponent.natAbs ≤ 22

theorem digits_decimal (literal : Literal) : literal.decimal.digits =
    Nat.ofDigitChars 10 literal.fraction (digitsValue literal.whole) := by
  rw [decimal, digitsValue_eq_ofDigitChars, Nat.ofDigitChars_append]
  rfl

/-- Of a literal with less than `2 ^ 53` in digits all of them are kept. -/
theorem gathered_of_lt (short : literal.decimal.digits < 2 ^ 53) :
    literal.gathered = (literal.decimal.digits, 0) := by
  have all := literal.digits_decimal
  have before : digitsValue literal.whole ≤ literal.decimal.digits := by
    rw [all]
    exact le_ofDigitChars _ _
  have whole : gatherDigits 0 literal.whole = (digitsValue literal.whole, 0) :=
    gatherDigits_of_lt (Nat.lt_of_le_of_lt before (Nat.lt_trans short (by decide)))
  have fraction : gatherDigits (digitsValue literal.whole) literal.fraction =
      (literal.decimal.digits, 0) := by
    rw [all] at short ⊢
    exact gatherDigits_of_lt (Nat.lt_trans short (by decide))
  simp only [gathered, whole, fraction]

/-- A short literal with a point or an exponent has the nearest number as its value. -/
theorem number?_of_isShort {x : Magnitude} (short : literal.isShort) (broken : literal.isBroken)
    (nearest : literal.decimal.magnitude? = some x) :
    literal.number? = some (.fraction (.finite literal.negative x)) := by
  obtain ⟨few, small⟩ : literal.decimal.digits < 2 ^ 53 ∧ literal.decimal.exponent.natAbs ≤ 22 := by
    simpa [isShort] using short
  obtain ⟨y, exact⟩ := Magnitude.exists_units_eq few
  rw [number?_of_isBroken broken, gathered_of_lt few, Magnitude.nearest?_of_units_eq exact,
    Option.bind_some, Int.natCast_zero, Int.add_zero, scaleByTen_of_units_eq exact small nearest]
  cases literal.negative <;> rfl

/-- The digits of a whole number of sixty-four bits are read as the number. -/
theorem number?_whole {value : Int} (lower : -2 ^ 63 ≤ value) (upper : value < 2 ^ 64) :
    number? ⟨value < 0, Nat.toDigits 10 value.natAbs, [], none⟩ = some (.whole value) := by
  have all : gatherDigits 0 (Nat.toDigits 10 value.natAbs) = (value.natAbs, 0) := by
    have digits := digitsValue_toDigits value.natAbs
    rw [digitsValue_eq_ofDigitChars] at digits
    have short : value.natAbs < Nat.pow 2 64 := by
      simp only [Nat.pow_eq]
      omega
    rw [gatherDigits_of_lt (by rwa [digits]), digits]
  have sized : decide (value < 0) = false ∨ (value.natAbs ≠ 0 ∧ value.natAbs ≤ Nat.pow 2 63) := by
    simp only [decide_eq_false_iff_not, Nat.pow_eq]
    omega
  rw [number?, all]
  simp only
  rw [if_pos ⟨trivial, trivial, trivial, sized⟩]
  congr 2
  simp only [decide_eq_true_eq]
  omega

end Literal

namespace Number

theorem isKept_of_read {number : Number} {literal : Literal}
    (spelled : number.literal? = some literal) (read : literal.number? = some number) :
    number.isKept := by
  rw [isKept_iff, reread?, spelled, Option.bind_some, read]

/-- A whole number of sixty-four bits is read back. -/
theorem isKept_whole {value : Int} (lower : -2 ^ 63 ≤ value) (upper : value < 2 ^ 64) :
    (Number.whole value).isKept :=
  isKept_of_read (literal?_eq_some_iff.mpr (scanLiteral_whole value))
    (Literal.number?_whole lower upper)

/-- Whether a number is written as a short literal. -/
def isShort (number : Number) : Bool := number.literal?.any Literal.isShort

/-- A number that is written as a short literal is read back from it. -/
theorem isKept_of_isShort {number : Number} (short : number.isShort) : number.isKept := by
  obtain ⟨literal, spelled, brief⟩ := (Option.any_eq_true _ _).mp short
  have scanned := literal?_eq_some_iff.mp spelled
  cases number with
  | whole value =>
    rw [scanLiteral_whole] at scanned
    cases scanned
    have few : value.natAbs < 2 ^ 53 := by
      simpa [Literal.isShort, Literal.decimal, digitsValue_toDigits] using brief
    exact isKept_whole (by omega) (by omega)
  | fraction x =>
    have finite : x.isFinite := by
      by_contra infinite
      rw [chars, if_neg infinite] at scanned
      cases scanned
    obtain ⟨literal', scanned', broken, value⟩ := exists_scanLiteral finite
    rw [scanned'] at scanned
    cases scanned
    obtain ⟨magnitude, nearest⟩ := Binary64.exists_magnitude?_of_isFinite (value ▸ finite)
    refine isKept_of_read spelled ?_
    rw [Literal.number?_of_isShort brief broken nearest,
      ← Binary64.ofDecimal_of_magnitude? nearest, value]

end Number

/-- The numbers of a value are read back if they are written as short literals. -/
theorem Value.isKept_of_all_isShort {value : Value} (short : value.numbers.all Number.isShort) :
    ∀ number ∈ value.numbers, number.isKept :=
  fun number member => Number.isKept_of_isShort (List.all_eq_true.mp short number member)

end CartoStyle.Json
