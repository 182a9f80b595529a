import CartoStyle.Decimal.Shortest
import Mathlib.Tactic.Ring

/-!
# Shortest digits read back

`Decimal.magnitude?` depends on the value of a fraction only: the two cut-offs agree with rounding
(`magnitude?_eq_nearest?`), and a zero may be moved from the digits to the exponent
(`magnitude?_shift`). Every candidate of the search for shortest digits is checked by reading it
back, and the exact expansion that ends the search reads back because it is not rounded at all. So
the digits of every magnitude read back (`magnitude?_shortest`).
-/

namespace CartoStyle

theorem roundHalfEven_mul_left {k : Nat} (positive : 0 < k) (num den : Nat) :
    roundHalfEven (k * num) (k * den) = roundHalfEven num den := by
  have quotient : k * num / (k * den) = num / den := Nat.mul_div_mul_left num den positive
  have remainder : k * num % (k * den) = k * (num % den) := Nat.mul_mod_mul_left ..
  have below : 2 * (k * (num % den)) < k * den ↔ 2 * (num % den) < den := by
    rw [Nat.mul_left_comm]
    exact Nat.mul_lt_mul_left positive
  have above : k * den < 2 * (k * (num % den)) ↔ den < 2 * (num % den) := by
    rw [Nat.mul_left_comm]
    exact Nat.mul_lt_mul_left positive
  simp only [roundHalfEven, quotient, remainder, below, above]

theorem roundHalfEven_eq_zero {num den : Nat} (tiny : 2 * num < den) :
    roundHalfEven num den = 0 := by
  have quotient : num / den = 0 := Nat.div_eq_of_lt (by omega)
  have remainder : num % den = num := Nat.mod_eq_of_lt (by omega)
  simp only [roundHalfEven, quotient, remainder, if_pos tiny]

namespace Magnitude

theorem nearest?_mul_left {k : Nat} (positive : 0 < k) (num den : Nat) :
    nearest? (k * num) (k * den) = nearest? num den := by
  have quotient : k * num * unitsPerOne / (k * den) = num * unitsPerOne / den := by
    rw [Nat.mul_assoc, Nat.mul_div_mul_left _ _ positive]
  have rounded (scale : Nat) : roundHalfEven (k * num * unitsPerOne) (k * den * Nat.pow 2 scale) =
      roundHalfEven (num * unitsPerOne) (den * Nat.pow 2 scale) := by
    rw [Nat.mul_assoc, Nat.mul_assoc, roundHalfEven_mul_left positive]
  simp only [nearest?, quotient, rounded]

/-- Equal quotients have the same nearest magnitude. -/
theorem nearest?_congr {num den num' den' : Nat} (positive : 0 < den) (positive' : 0 < den')
    (same : num * den' = num' * den) : nearest? num den = nearest? num' den' := by
  rw [← nearest?_mul_left positive' num den, ← nearest?_mul_left positive num' den',
    Nat.mul_comm den' num, same, Nat.mul_comm num' den, Nat.mul_comm den' den]

theorem nearest?_eq_zero {num den : Nat} (tiny : 2 * (num * unitsPerOne) < den) :
    nearest? num den = some .zero := by
  have quotient : num * unitsPerOne / den = 0 := Nat.div_eq_of_lt (by omega)
  have rounded : roundHalfEven (num * unitsPerOne) (den * Nat.pow 2 0) = 0 :=
    roundHalfEven_eq_zero (by rw [show Nat.pow 2 0 = 1 from rfl]; omega)
  simp only [nearest?, quotient, Nat.log2_zero, Nat.zero_add, Nat.reduceSub, rounded]
  decide

theorem ofParts?_eq_none {mantissa scale : Nat} (beyond : 2045 < scale) :
    ofParts? mantissa scale = none := by
  rw [ofParts?, dif_neg]
  omega

private theorem two_pow_pos (n : Nat) : 0 < Nat.pow 2 n := Nat.two_pow_pos n

theorem unitsPerOne_pos : 0 < unitsPerOne := by
  unfold unitsPerOne
  exact two_pow_pos 1074

/-- From 2099 bits on the scale is too large for the format. -/
theorem nearest?_eq_none {bits num den : Nat} (many : 2099 ≤ bits) (positive : 0 < den)
    (huge : 2 ^ bits * den ≤ num * unitsPerOne) : nearest? num den = none := by
  have quotient : 2 ^ bits ≤ num * unitsPerOne / den := (Nat.le_div_iff_mul_le positive).mpr huge
  have nonzero : num * unitsPerOne / den ≠ 0 :=
    Nat.pos_iff_ne_zero.mp (Nat.lt_of_lt_of_le (Nat.two_pow_pos bits) quotient)
  have bits : bits ≤ (num * unitsPerOne / den).log2 := (Nat.le_log2 nonzero).mpr quotient
  simp only [nearest?]
  rw [ofParts?_eq_none (by omega), ofParts?_eq_none (by omega), ite_self]

theorem log2_units (x : Magnitude) : x.units.log2 + 1 - 53 = x.scale := by
  have upper := x.mantissa_lt
  simp only [units, Nat.pow_eq] at upper ⊢
  by_cases blank : x.mantissa = 0
  · have least : x.scale = 0 := by
      rcases x.normal with least | normal
      · exact least
      · rw [blank] at normal; exact absurd normal (by decide)
    simp [blank, least]
  · have nonzero : x.mantissa * 2 ^ x.scale ≠ 0 :=
      Nat.mul_ne_zero blank (Nat.pos_iff_ne_zero.mp (Nat.two_pow_pos _))
    rcases x.normal with least | normal
    · have : (x.mantissa * 2 ^ x.scale).log2 < 53 := by
        rw [Nat.log2_lt nonzero, least]
        simpa using upper
      omega
    · have bits : (x.mantissa * 2 ^ x.scale).log2 = 52 + x.scale := by
        rw [Nat.log2_eq_iff nonzero, Nat.pow_add, show 52 + x.scale + 1 = 53 + x.scale by omega,
          Nat.pow_add]
        exact ⟨Nat.mul_le_mul_right _ normal,
          Nat.mul_lt_mul_of_pos_right upper (Nat.two_pow_pos _)⟩
      omega

/-- A magnitude is nearest to itself. -/
theorem nearest?_units (x : Magnitude) : nearest? x.units unitsPerOne = some x := by
  have quotient : x.units * unitsPerOne / unitsPerOne = x.units :=
    Nat.mul_div_cancel _ unitsPerOne_pos
  have rounded : roundHalfEven (x.units * unitsPerOne) (unitsPerOne * Nat.pow 2 x.scale) =
      x.mantissa := by
    rw [units, Nat.mul_assoc, Nat.mul_comm (Nat.pow 2 x.scale)]
    exact roundHalfEven_exact _ (Nat.mul_pos unitsPerOne_pos (Nat.two_pow_pos _))
  have proper : (x.mantissa == Nat.pow 2 53) = false := by
    have := x.mantissa_lt
    simp only [beq_eq_false_iff_ne]
    omega
  simp only [nearest?, quotient, log2_units, rounded, proper, Bool.false_eq_true, if_false,
    ofParts?_self]

end Magnitude

namespace Decimal

/-- A fraction is small if its denominator has a digit for each bit of its digits and some more. -/
private theorem tiny_of_places {digits bits units spare places : Nat}
    (short : digits < 2 ^ (bits + 1))
    (enough : 4 * units ≤ Nat.pow 10 spare) (long : bits + spare ≤ places) (positive : 0 < units) :
    2 * (digits * units) < Nat.pow 10 places := by
  have powers : 2 ^ bits ≤ 10 ^ bits := Nat.pow_le_pow_left (by decide) _
  calc 2 * (digits * units)
      < 2 * (2 ^ (bits + 1) * units) :=
        Nat.mul_lt_mul_of_pos_left (Nat.mul_lt_mul_of_pos_right short positive) (by decide)
    _ = 2 ^ bits * (4 * units) := by ring
    _ ≤ 10 ^ bits * 10 ^ spare := Nat.mul_le_mul powers enough
    _ = 10 ^ (bits + spare) := (Nat.pow_add ..).symm
    _ ≤ 10 ^ places := Nat.pow_le_pow_right (by decide) long

/-- The cut-offs of `magnitude?` save work and change nothing. -/
theorem magnitude?_eq_nearest? (d : Decimal) : d.magnitude? = Magnitude.nearest? d.num d.den := by
  unfold magnitude?
  split
  · rename_i small
    refine (Magnitude.nearest?_eq_zero ?_).symm
    by_cases blank : d.digits = 0
    · have := d.den_pos
      simp only [num, blank, Nat.zero_mul, Nat.mul_zero]
      exact this
    · have low : d.exponent + d.digits.log2 + 400 < 0 := small.resolve_left blank
      have whole : d.exponent.toNat = 0 := by omega
      have enough : 4 * Magnitude.unitsPerOne ≤ Nat.pow 10 401 := by decide +kernel
      rw [num, whole, Nat.pow_eq, Nat.pow_zero, Nat.mul_one]
      exact tiny_of_places Nat.lt_log2_self enough (by omega) Magnitude.unitsPerOne_pos
  · rename_i notSmall
    split
    · rename_i large
      refine (@Magnitude.nearest?_eq_none 2099 _ _ (Nat.le_refl _) d.den_pos ?_).symm
      have fraction : d.den = 1 := by rw [den, show (-d.exponent).toNat = 0 by omega]
      have powers (n : Nat) (below : n ≤ d.exponent.toNat) : Nat.pow 10 n ≤ d.num :=
        calc Nat.pow 10 n ≤ Nat.pow 10 d.exponent.toNat := Nat.pow_le_pow_right (by decide) below
          _ ≤ d.digits * Nat.pow 10 d.exponent.toNat := Nat.le_mul_of_pos_left _ (by omega)
      have enough : Nat.pow 2 2099 ≤ Nat.pow 10 401 * Magnitude.unitsPerOne := by decide +kernel
      rw [fraction, Nat.mul_one]
      exact Nat.le_trans enough (Nat.mul_le_mul_right _ (powers 401 (by omega)))
    · rfl

/-- A zero at the end of the digits counts as much as one in the exponent. -/
theorem magnitude?_shift (digits : Nat) (exponent : Int) :
    magnitude? ⟨10 * digits, exponent⟩ = magnitude? ⟨digits, exponent + 1⟩ := by
  rw [magnitude?_eq_nearest?, magnitude?_eq_nearest?]
  apply Magnitude.nearest?_congr (den_pos _) (den_pos _)
  simp only [num, den, Nat.pow_eq]
  by_cases fraction : exponent < 0
  · have whole : exponent.toNat = 0 := by omega
    have whole' : (exponent + 1).toNat = 0 := by omega
    have places : (-exponent).toNat = (-(exponent + 1)).toNat + 1 := by omega
    rw [whole, whole', places, Nat.pow_succ]
    ring
  · have whole : (exponent + 1).toNat = exponent.toNat + 1 := by omega
    have places : (-exponent).toNat = 0 := by omega
    have places' : (-(exponent + 1)).toNat = 0 := by omega
    rw [whole, places, places', Nat.pow_succ]
    ring

theorem magnitude?_stripped (digits : Nat) (exponent : Int) :
    (stripped digits exponent).magnitude? = magnitude? ⟨digits, exponent⟩ := by
  fun_induction stripped digits exponent with
  | case1 exponent => simp [magnitude?]
  | case2 digits exponent nonzero tens ih =>
    have whole : digits = 10 * (digits / 10) := by omega
    conv_rhs => rw [whole]
    rw [ih, magnitude?_shift]
  | case3 => rfl

/-- A count of units of `2 ^ -places` has an exact expansion of that many places. -/
private theorem nearest?_expansion (units places : Nat) :
    Magnitude.nearest? (units * Nat.pow 5 places) (Nat.pow 10 places) =
      Magnitude.nearest? units (Nat.pow 2 places) := by
  simp only [Nat.pow_eq]
  apply Magnitude.nearest?_congr (Nat.pow_pos (by decide)) (Nat.two_pow_pos _)
  rw [show 10 = 5 * 2 from rfl, Nat.mul_pow, Nat.mul_assoc]

theorem magnitude?_exact (x : Magnitude) : (exact x).magnitude? = some x := by
  have digits (n : Nat) : num ⟨n, -1074⟩ = n := Nat.mul_one n
  rw [exact, magnitude?_stripped, magnitude?_eq_nearest?, digits, ← Magnitude.nearest?_units x]
  exact nearest?_expansion x.units 1074

/-- Whichever of two candidates is taken, it was taken because it reads back. -/
theorem magnitude?_readingBack? {x : Magnitude} {near far d : Decimal}
    (found : readingBack? x near far = some d) : d.magnitude? = some x := by
  unfold readingBack? at found
  split at found
  · rename_i readsBack
    rw [Option.some.injEq] at found
    rw [← found, magnitude?_stripped]
    exact readsBack
  · split at found
    · rename_i readsBack
      rw [Option.some.injEq] at found
      rw [← found, magnitude?_stripped]
      exact readsBack
    · cases found

theorem magnitude?_ofDigitCount? {tie : Tie} {x : Magnitude} {count : Nat} {d : Decimal}
    (found : ofDigitCount? tie x count = some d) : d.magnitude? = some x := by
  unfold ofDigitCount? at found
  extract_lets exponent num den lower twice down up at found
  split at found
  · exact magnitude?_readingBack? found
  · exact magnitude?_readingBack? found

/-- The digits that a magnitude is written with read back as that magnitude. -/
theorem magnitude?_shortest (tie : Tie) (x : Magnitude) : (shortest tie x).magnitude? = some x := by
  have candidate : ∀ d, ((List.range 17).findSome? fun n => ofDigitCount? tie x (n + 1)) = some d →
      d.magnitude? = some x := by
    intro d found
    obtain ⟨n, _, hit⟩ := List.exists_of_findSome?_eq_some found
    exact magnitude?_ofDigitCount? hit
  rw [shortest]
  generalize ((List.range 17).findSome? fun n => ofDigitCount? tie x (n + 1)) = found at candidate
  cases found with
  | none =>
    rw [Option.getD_none]
    exact magnitude?_exact x
  | some d =>
    rw [Option.getD_some]
    exact candidate d rfl

end Decimal

end CartoStyle
