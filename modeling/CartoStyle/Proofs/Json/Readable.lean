import CartoStyle.Proofs.Json.Kept

/-!
# Every finite number can be read

Reading a fraction rounds its digits and a power of ten, and each goes up by one part in `2 ^ 53` at
most; their product then leaves the format only where the fraction is about as great as the three
greatest numbers, and of these the literals are read as well. So every finite number is read from
its own literal (`Number.isReadable_of_isFinite`), if not always as itself.
-/

namespace CartoStyle.Json

/-! ## Digits that are left out -/

theorem mul_pow_le_ofDigitChars (value : Nat) (digits : List Char) :
    value * 10 ^ digits.length ≤ Nat.ofDigitChars 10 digits value := by
  induction digits generalizing value with
  | nil => simp
  | cons c rest ih =>
    rw [Nat.ofDigitChars_cons]
    calc value * 10 ^ (rest.length + 1) = 10 * value * 10 ^ rest.length := by ring
      _ ≤ (10 * value + (c.toNat - '0'.toNat)) * 10 ^ rest.length :=
        Nat.mul_le_mul_right _ (Nat.le_add_right ..)
      _ ≤ _ := ih _

theorem ofDigitChars_le_ofDigitChars {small large : Nat} (less : small ≤ large)
    (digits : List Char) : Nat.ofDigitChars 10 digits small ≤ Nat.ofDigitChars 10 digits large := by
  induction digits generalizing small large with
  | nil => exact less
  | cons c rest ih =>
    rw [Nat.ofDigitChars_cons, Nat.ofDigitChars_cons]
    exact ih (by omega)

/-- The digits that are kept, with zeros for those that are left, are no more than all of them. -/
theorem gatherDigits_mul_pow_le (value : Nat) (digits : List Char) :
    (gatherDigits value digits).1 * 10 ^ (gatherDigits value digits).2 ≤
      Nat.ofDigitChars 10 digits value := by
  induction digits generalizing value with
  | nil => simp [gatherDigits]
  | cons c rest ih =>
    simp only [gatherDigits]
    split
    · rw [Nat.ofDigitChars_cons]
      exact ih _
    · exact mul_pow_le_ofDigitChars value (c :: rest)

/-- Either all digits are left, or the first one is kept. -/
theorem gatherDigits_cases (value : Nat) (digits : List Char) :
    gatherDigits value digits = (value, digits.length) ∨
      (gatherDigits value digits).2 < digits.length := by
  cases digits with
  | nil => exact .inl rfl
  | cons c rest =>
    simp only [gatherDigits]
    split
    · exact .inr (Nat.lt_succ_of_le (gatherDigits_left_le _ _))
    · exact .inl rfl

/-- Digits are left only where one more would not have fitted into sixty-four bits. -/
theorem two_pow_mul_pow_le {value left : Nat} {digits : List Char}
    (cut : (gatherDigits value digits).2 = left + 1) :
    2 ^ 64 * 10 ^ left ≤ Nat.ofDigitChars 10 digits value := by
  induction digits generalizing value with
  | nil => cases cut
  | cons c rest ih =>
    rw [Nat.ofDigitChars_cons]
    simp only [gatherDigits] at cut
    split at cut
    · exact ih cut
    · rename_i long
      obtain rfl : rest.length = left := by omega
      exact Nat.le_trans (Nat.mul_le_mul_right _ (Nat.le_of_not_lt long))
        (mul_pow_le_ofDigitChars _ _)

namespace Literal

/-- The digits that are kept, with zeros for those that are left, are no more than all of them. -/
theorem gathered_le (literal : Literal) :
    literal.gathered.1 * 10 ^ literal.gathered.2 ≤ literal.decimal.digits := by
  have all := literal.digits_decimal
  rw [digitsValue_eq_ofDigitChars] at all
  have whole := gatherDigits_mul_pow_le 0 literal.whole
  have short := gatherDigits_lt (show 0 < Nat.pow 2 64 by decide) literal.whole
  simp only [gathered]
  rw [all]
  cases dropped : (gatherDigits 0 literal.whole).2 with
  | zero =>
    rw [dropped, Nat.pow_zero, Nat.mul_one] at whole
    rw [Nat.zero_add]
    exact Nat.le_trans (gatherDigits_mul_pow_le _ _) (ofDigitChars_le_ofDigitChars whole _)
  | succ left =>
    have beyond := two_pow_mul_pow_le dropped
    rw [dropped] at whole
    rcases gatherDigits_cases (gatherDigits 0 literal.whole).1 literal.fraction with alone | few
    · rw [alone, Nat.pow_add, ← Nat.mul_assoc]
      exact Nat.le_trans (Nat.mul_le_mul_right _ whole) (mul_pow_le_ofDigitChars _ _)
    · -- A digit of the fraction is taken in the place of one of the whole part that was too great.
      have kept := gatherDigits_lt short literal.fraction
      generalize gatherDigits (gatherDigits 0 literal.whole).1 literal.fraction = found at few kept
      calc found.1 * 10 ^ (left + 1 + found.2)
          ≤ 2 ^ 64 * 10 ^ (left + 1 + found.2) := Nat.mul_le_mul_right _ (Nat.le_of_lt kept)
        _ = 2 ^ 64 * 10 ^ left * 10 ^ (found.2 + 1) := by ring
        _ ≤ Nat.ofDigitChars 10 literal.whole 0 * 10 ^ literal.fraction.length :=
          Nat.mul_le_mul beyond (Nat.pow_le_pow_right (by decide) few)
        _ ≤ _ := mul_pow_le_ofDigitChars _ _

end Literal

/-! ## Products within the format -/

/-- The greatest magnitude. -/
def greatest : Magnitude := ⟨Nat.pow 2 53 - 1, 2045, by decide, by decide, .inr (by decide)⟩

theorem exists_nearest?_pow {exponent largest : Nat} (small : exponent ≤ largest)
    (within : Nat.pow 10 largest * Magnitude.unitsPerOne ≤ greatest.units) :
    ∃ x, Magnitude.nearest? (Nat.pow 10 exponent) 1 = some x := by
  have less : Nat.pow 10 exponent ≤ Nat.pow 10 largest := Nat.pow_le_pow_right (by decide) small
  apply Magnitude.exists_nearest? greatest Nat.one_pos
  rw [Nat.mul_one]
  exact Nat.le_trans (Nat.mul_le_mul_right _ less) within

theorem nearest?_powerOfTen {exponent : Nat} (small : exponent ≤ 308) :
    Magnitude.nearest? (Nat.pow 10 exponent) 1 = some (powerOfTen exponent) := by
  obtain ⟨x, nearest⟩ := exists_nearest?_pow small (by decide +kernel)
  rw [powerOfTen, nearest]
  rfl

/-- Twice a bound on what can be scaled: a little less than fifty-three bits of a scale hold. -/
def scalableTo (scale : Nat) : Nat := (2 ^ 54 - 7) * Nat.pow 2 scale

/-- Two roundings add less to a scalable product than the format has left. -/
theorem scalableTo_mul_le :
    scalableTo 2045 * ((2 ^ 53 + 1) * (2 ^ 53 + 1)) ≤ greatest.units * (2 * (2 ^ 53 * 2 ^ 53)) := by
  decide +kernel

theorem scalableTo_lt_of_le {exponent least : Nat} (large : least ≤ exponent)
    (beyond : scalableTo 2045 < 2 * (Nat.pow 10 least * Magnitude.unitsPerOne)) :
    scalableTo 2045 < 2 * (Nat.pow 10 exponent * Magnitude.unitsPerOne) := by
  have more : Nat.pow 10 least ≤ Nat.pow 10 exponent := Nat.pow_le_pow_right (by decide) large
  exact Nat.lt_of_lt_of_le beyond (Nat.mul_le_mul_left _ (Nat.mul_le_mul_right _ more))

theorem digits_pos {digits : Nat} {x : Magnitude} (nonzero : x ≠ .zero)
    (nearest : Magnitude.nearest? digits 1 = some x) : 0 < digits := by
  apply Nat.pos_of_ne_zero
  rintro rfl
  rw [Magnitude.nearest?_eq_zero (by rw [Nat.zero_mul]; decide)] at nearest
  exact nonzero (Option.some.inj nearest).symm

/-- A product of two rounded factors has a nearest magnitude if the factors have a scalable product.
-/
theorem exists_nearest?_product {digits power : Nat} {x y : Magnitude} (positive : 0 < digits)
    (positive' : 0 < power) (nearest : Magnitude.nearest? digits 1 = some x)
    (nearest' : Magnitude.nearest? power 1 = some y)
    (within : 2 * (digits * power * Magnitude.unitsPerOne) ≤ scalableTo 2045) :
    ∃ z, Magnitude.nearest? (x.units * y.units)
      (Magnitude.unitsPerOne * Magnitude.unitsPerOne) = some z := by
  have one := Magnitude.unitsPerOne_pos
  have factor := Magnitude.units_mul_le_of_nearest? Nat.one_pos positive nearest
  have factor' := Magnitude.units_mul_le_of_nearest? Nat.one_pos positive' nearest'
  rw [Nat.mul_one] at factor factor'
  apply Magnitude.exists_nearest? greatest (Nat.mul_pos one one)
  have room := scalableTo_mul_le
  have parts : 0 < 2 * (2 ^ 53 * 2 ^ 53) := by decide
  generalize Magnitude.unitsPerOne = unit, greatest.units = most, scalableTo 2045 = bound,
    2 ^ 53 = part at *
  apply Nat.le_of_mul_le_mul_right _ parts
  calc x.units * y.units * unit * (2 * (part * part))
      = 2 * (x.units * part * (y.units * part)) * unit := by ring
    _ ≤ 2 * (digits * unit * (part + 1) * (power * unit * (part + 1))) * unit :=
      Nat.mul_le_mul_right _ (Nat.mul_le_mul_left _ (Nat.mul_le_mul factor factor'))
    _ = 2 * (digits * power * unit) * ((part + 1) * (part + 1)) * (unit * unit) := by ring
    _ ≤ bound * ((part + 1) * (part + 1)) * (unit * unit) :=
      Nat.mul_le_mul_right _ (Nat.mul_le_mul_right _ within)
    _ ≤ most * (2 * (part * part)) * (unit * unit) := Nat.mul_le_mul_right _ room
    _ = most * (unit * unit) * (2 * (part * part)) := by ring

/-- Digits times a power of ten do not leave the format, each step rounded, if they stay a little
below its end. -/
theorem exists_scaleByTen {digits : Nat} {exponent : Int} {x : Magnitude}
    (nearest : Magnitude.nearest? digits 1 = some x)
    (within : 0 ≤ exponent →
      2 * (digits * Nat.pow 10 exponent.toNat * Magnitude.unitsPerOne) ≤ scalableTo 2045) :
    ∃ value, scaleByTen x exponent = some value := by
  simp only [scaleByTen]
  split_ifs with zero whole small
  · exact ⟨_, rfl⟩
  · have size : exponent.natAbs = exponent.toNat := by omega
    obtain ⟨z, product⟩ := exists_nearest?_product (digits_pos zero nearest)
      (Nat.pow_pos (by decide)) nearest (nearest?_powerOfTen small) (size ▸ within whole)
    rw [Binary64.ofProduct, Binary64.ofRatio, product]
    exact ⟨_, rfl⟩
  · -- beyond the greatest power of ten that is tried, not even one digit is scalable
    have least : 309 ≤ exponent.toNat := by omega
    have beyond := scalableTo_lt_of_le least (by decide +kernel)
    have more : Nat.pow 10 exponent.toNat ≤ digits * Nat.pow 10 exponent.toNat :=
      Nat.le_mul_of_pos_left _ (digits_pos zero nearest)
    have most := Nat.le_trans (Nat.mul_le_mul_left 2 (Nat.mul_le_mul_right _ more)) (within whole)
    exact absurd most (Nat.not_le_of_lt beyond)
  all_goals exact ⟨_, rfl⟩

/-! ## Literals of numbers -/

namespace Literal

theorem gathered_lt (literal : Literal) : literal.gathered.1 < Nat.pow 2 64 :=
  gatherDigits_lt (gatherDigits_lt (by decide) _) _

/-- The digits that are kept, at their place, are no more than the fraction that is spelled. -/
theorem gathered_mul_le {literal : Literal}
    (whole : 0 ≤ literal.decimal.exponent + literal.gathered.2) :
    literal.gathered.1 * Nat.pow 10 (literal.decimal.exponent + literal.gathered.2).toNat *
      literal.decimal.den ≤ literal.decimal.num := by
  have places : (literal.decimal.exponent + literal.gathered.2).toNat +
      (-literal.decimal.exponent).toNat =
        literal.gathered.2 + literal.decimal.exponent.toNat := by omega
  simp only [Decimal.den, Decimal.num, Nat.pow_eq]
  calc literal.gathered.1 * 10 ^ (literal.decimal.exponent + literal.gathered.2).toNat *
        10 ^ (-literal.decimal.exponent).toNat
      = literal.gathered.1 * 10 ^ (literal.gathered.2 + literal.decimal.exponent.toNat) := by
        rw [Nat.mul_assoc, ← Nat.pow_add, places]
    _ = literal.gathered.1 * 10 ^ literal.gathered.2 * 10 ^ literal.decimal.exponent.toNat := by
        rw [Nat.pow_add, Nat.mul_assoc]
    _ ≤ literal.decimal.digits * 10 ^ literal.decimal.exponent.toNat :=
        Nat.mul_le_mul_right _ literal.gathered_le

/-- A literal with a point or an exponent is read if the fraction that it spells is scalable. -/
theorem exists_number?_of_le {literal : Literal} (broken : literal.isBroken)
    (within : 2 * (literal.decimal.num * Magnitude.unitsPerOne) ≤
      scalableTo 2045 * literal.decimal.den) :
    ∃ value, literal.number? = some (.fraction value) := by
  obtain ⟨x, nearest⟩ := exists_nearest?_of_lt literal.gathered_lt
  have size (whole : 0 ≤ literal.decimal.exponent + literal.gathered.2) :
      2 * (literal.gathered.1 * Nat.pow 10 (literal.decimal.exponent + literal.gathered.2).toNat *
        Magnitude.unitsPerOne) ≤ scalableTo 2045 := by
    have kept := gathered_mul_le whole
    generalize Nat.pow 10 (literal.decimal.exponent + literal.gathered.2).toNat = power at kept ⊢
    apply Nat.le_of_mul_le_mul_right _ literal.decimal.den_pos
    calc 2 * (literal.gathered.1 * power * Magnitude.unitsPerOne) * literal.decimal.den
        = 2 * (literal.gathered.1 * power * literal.decimal.den * Magnitude.unitsPerOne) := by ring
      _ ≤ 2 * (literal.decimal.num * Magnitude.unitsPerOne) :=
        Nat.mul_le_mul_left _ (Nat.mul_le_mul_right _ kept)
      _ ≤ scalableTo 2045 * literal.decimal.den := within
  obtain ⟨value, scaled⟩ := exists_scaleByTen nearest size
  rw [number?_of_isBroken broken, nearest, Option.bind_some, scaled]
  exact ⟨_, rfl⟩

end Literal

/-- A magnitude and half a step are scalable, unless mantissa and scale are about the greatest. -/
theorem mul_pow_le_or {mantissa scale most : Nat} (short : mantissa < Nat.pow 2 53)
    (small : scale ≤ most) :
    (2 * mantissa + 1) * Nat.pow 2 scale ≤ scalableTo most ∨
      scale = most ∧ 2 ^ 54 - 7 < 2 * mantissa + 1 := by
  rcases Nat.lt_or_eq_of_le small with less | rfl
  · have step : Nat.pow 2 (scale + 1) ≤ Nat.pow 2 most := Nat.pow_le_pow_right (by decide) less
    have mantissa_le : 2 * mantissa + 1 ≤ (2 ^ 54 - 7) * 2 := by
      simp only [Nat.pow_eq] at short
      omega
    left
    calc (2 * mantissa + 1) * Nat.pow 2 scale
        ≤ (2 ^ 54 - 7) * 2 * Nat.pow 2 scale := Nat.mul_le_mul_right _ mantissa_le
      _ = (2 ^ 54 - 7) * Nat.pow 2 (scale + 1) := by
        simp only [Nat.pow_eq]
        ring
      _ ≤ scalableTo most := Nat.mul_le_mul_left _ step
  · rcases Nat.lt_or_ge (2 ^ 54 - 7) (2 * mantissa + 1) with beyond | within
    · exact .inr ⟨rfl, beyond⟩
    · exact .inl (Nat.mul_le_mul_right _ within)

/-- The three greatest magnitudes. -/
def greatestThree : List Magnitude :=
  [1, 2, 3].filterMap fun less => Magnitude.ofParts? (Nat.pow 2 53 - less) 2045

/-- What is nearest to one of the other magnitudes is scalable. -/
theorem mem_greatestThree_or_le (x : Magnitude) :
    x ∈ greatestThree ∨ (2 * x.mantissa + 1) * Nat.pow 2 x.scale ≤ scalableTo 2045 := by
  have short := x.mantissa_lt
  rcases mul_pow_le_or short x.scale_le with within | ⟨most, beyond⟩
  · exact .inr within
  -- only three mantissas are left, each given by how much less it is than `2 ^ 53`
  · refine .inl (List.mem_filterMap.mpr ⟨Nat.pow 2 53 - x.mantissa, ?_, ?_⟩)
    · simp only [Nat.pow_eq] at short ⊢
      simp only [List.mem_cons, List.not_mem_nil, or_false]
      omega
    · rw [show Nat.pow 2 53 - (Nat.pow 2 53 - x.mantissa) = x.mantissa by omega, ← most]
      exact Magnitude.ofParts?_self x

/-- The literals of the three greatest numbers, of both signs, are read. -/
theorem isSome_of_mem_greatestThree : ∀ x ∈ greatestThree, ∀ negative : Bool,
    (Number.fraction (.finite negative x)).reread?.isSome := by
  decide +kernel

namespace Number

/-- A finite number is read from its own literal. -/
theorem isReadable_of_isFinite {x : Binary64} (finite : x.isFinite) :
    (Number.fraction x).isReadable := by
  obtain ⟨literal, scanned, broken, value⟩ := exists_scanLiteral finite
  have spelled : (Number.fraction x).reread? = literal.number? := by
    rw [reread?, literal?_eq_some_iff.mpr scanned, Option.bind_some]
  obtain ⟨magnitude, nearest⟩ := Binary64.exists_magnitude?_of_isFinite (value ▸ finite)
  obtain rfl := value.symm.trans (Binary64.ofDecimal_of_magnitude? nearest)
  obtain ⟨y, read⟩ : ∃ y, literal.number? = some (.fraction y) := by
    rcases mem_greatestThree_or_le magnitude with great | within
    · obtain ⟨number, read⟩ :=
        Option.isSome_iff_exists.mp (isSome_of_mem_greatestThree magnitude great _)
      obtain ⟨y, rfl⟩ := Literal.eq_fraction_of_isBroken broken (spelled.symm.trans read)
      exact ⟨y, spelled.symm.trans read⟩
    · rw [Decimal.magnitude?_eq_nearest?] at nearest
      exact Literal.exists_number?_of_le broken (Nat.le_trans
        (Magnitude.two_mul_le_of_nearest? literal.decimal.den_pos nearest)
        (Nat.mul_le_mul_right _ within))
  rw [read] at spelled
  rw [isReadable_iff, spelled, onFraction, reread, spelled]
  rfl

end Number

/-- Finite numbers of a value are readable if all of them are fractions. -/
theorem Value.isReadable_of_isFractional {value : Value} (fractional : value.isFractional)
    (finite : ∀ number ∈ value.numbers, number.value.isFinite) :
    ∀ number ∈ value.numbers, number.isReadable := by
  intro number present
  have fraction := List.all_eq_true.mp fractional number present
  cases number with
  | whole value => cases fraction
  | fraction x => exact Number.isReadable_of_isFinite (finite _ present)

end CartoStyle.Json
