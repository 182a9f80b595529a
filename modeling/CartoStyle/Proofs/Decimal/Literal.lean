import CartoStyle.Decimal.Form
import CartoStyle.Decimal.Literal
import CartoStyle.Proofs.Decimal.Shortest
import CartoStyle.Proofs.Text.Visible

/-!
# Written numbers read back

A number in the plain form is a literal: digits, perhaps with a point, perhaps after a minus. The
reader of literals takes exactly these characters (`scanNumber_chars`), whatever follows them,
unless that could go on with the literal. The fraction it finds need not have the digits that were
written, but it has the same value, and so the number is the same.
-/

namespace CartoStyle

open Text (Stops stops_nil stops_cons takeWhile_append_of_stops dropWhile_append_of_stops)

/-- The characters that a literal may go on with. -/
def continuesNumber (c : Char) : Bool := c.isDigit || c == '.' || c == 'e' || c == 'E'

/-- The characters that digits with or without a point may go on with. -/
def continuesMantissa (c : Char) : Bool := c.isDigit || c == '.'

theorem stops_continuesMantissa {text : List Char} (stop : Stops continuesNumber text) :
    Stops continuesMantissa text := by
  intro c next
  have := stop c next
  simp only [continuesNumber, continuesMantissa, Bool.or_eq_false_iff] at this ⊢
  exact this.1.1

theorem stops_isDigit_of_mantissa {text : List Char} (stop : Stops continuesMantissa text) :
    Stops Char.isDigit text :=
  fun c next => (Bool.or_eq_false_iff.mp (stop c next)).1

theorem stops_isDigit {text : List Char} (stop : Stops continuesNumber text) :
    Stops Char.isDigit text := stops_isDigit_of_mantissa (stops_continuesMantissa stop)

theorem takeFraction_of_stops {text : List Char} (stop : Stops continuesMantissa text) :
    takeFraction text = ([], text) := by
  unfold takeFraction
  split
  · exact absurd (stop '.' rfl) (by decide)
  · rfl

theorem takeExponent_of_stops {text : List Char} (stop : Stops continuesNumber text) :
    takeExponent text = .ok (none, text) := by
  cases text with
  | nil => rfl
  | cons c text =>
    have next := stops_cons.mp stop
    simp only [continuesNumber, Bool.or_eq_false_iff] at next
    simp [takeExponent, next.1.2, next.2]

theorem takeSign_of_isDigit {c : Char} (digit : c.isDigit) (text : List Char) :
    takeSign (c :: text) = (false, c :: text) := by
  have minus : c ≠ '-' := by rintro rfl; simp at digit
  have plus : c ≠ '+' := by rintro rfl; simp at digit
  simp only [takeSign]
  split <;> simp_all

theorem takeSign_append {text : List Char} (nonempty : text ≠ []) (rest : List Char) :
    takeSign (text ++ rest) = ((takeSign text).1, (takeSign text).2 ++ rest) := by
  cases text with
  | nil => exact absurd rfl nonempty
  | cons c text =>
    simp only [takeSign, List.cons_append]
    split <;> simp_all

/-- An exponent does not change if the text behind it does not go on with the literal. -/
theorem takeExponent_append {text rest after : List Char} {exponent : Option Int}
    (stop : Stops continuesNumber rest) (taken : takeExponent text = .ok (exponent, after)) :
    takeExponent (text ++ rest) = .ok (exponent, after ++ rest) := by
  cases text with
  | nil =>
    cases taken
    exact takeExponent_of_stops stop
  | cons c text =>
    simp only [takeExponent, List.cons_append] at taken ⊢
    split at taken
    · rename_i mark
      rw [if_pos mark]
      split at taken
      · cases taken
      · rename_i digits
        have nonempty : text ≠ [] := by
          rintro rfl
          exact digits rfl
        cases taken
        simp only [takeSign_append nonempty, Text.takeWhile_append (stops_isDigit stop),
          Text.dropWhile_append (stops_isDigit stop), if_neg digits]
    · rename_i other
      cases taken
      rw [if_neg other, List.cons_append]

/-- A minus in front of a literal makes it negative. -/
theorem scanNumber_minus {c : Char} {text rest : List Char} {value : Decimal} (digit : c.isDigit)
    (unsigned : scanNumber (c :: text) = .number false value rest) :
    scanNumber ('-' :: c :: text) = .number true value rest := by
  simp only [scanNumber, takeSign_of_isDigit digit] at unsigned
  simp only [scanNumber, takeSign]
  split at unsigned
  · cases unsigned
  · rename_i some
    simp only [some]
    split at unsigned
    · cases unsigned
    · cases unsigned
      rfl

/-- Digits that nothing goes on with are a literal. -/
theorem scanNumber_digits {c : Char} {digits rest : List Char}
    (all : ∀ d ∈ c :: digits, d.isDigit) (stop : Stops continuesNumber rest) :
    scanNumber (c :: digits ++ rest) = .number false ⟨digitsValue (c :: digits), 0⟩ rest := by
  have first := all c (List.mem_cons_self ..)
  have taken := takeWhile_append_of_stops all (stops_isDigit stop)
  have dropped := dropWhile_append_of_stops all (stops_isDigit stop)
  rw [List.cons_append] at taken dropped ⊢
  simp [scanNumber, takeSign_of_isDigit first, taken, dropped,
    takeFraction_of_stops (stops_continuesMantissa stop), takeExponent_of_stops stop]

/-- Digits with a point among them are a literal. -/
theorem scanNumber_fraction {c : Char} {whole fraction rest : List Char}
    (all : ∀ d ∈ c :: whole, d.isDigit) (places : ∀ d ∈ fraction, d.isDigit)
    (stop : Stops continuesNumber rest) :
    scanNumber (c :: whole ++ '.' :: fraction ++ rest) =
      .number false ⟨digitsValue (c :: whole ++ fraction), -fraction.length⟩ rest := by
  have first := all c (List.mem_cons_self ..)
  have point : Stops Char.isDigit ('.' :: (fraction ++ rest)) := stops_cons.mpr (by decide)
  have taken := takeWhile_append_of_stops all point
  have dropped := dropWhile_append_of_stops all point
  have taken' := takeWhile_append_of_stops places (stops_isDigit stop)
  have dropped' := dropWhile_append_of_stops places (stops_isDigit stop)
  simp only [List.cons_append, List.append_assoc] at taken dropped ⊢
  simp [scanNumber, takeSign_of_isDigit first, taken, dropped, takeFraction, taken', dropped',
    takeExponent_of_stops stop]

/-! ## Digits -/

theorem digitsValue_eq_ofDigitChars (digits : List Char) :
    digitsValue digits = Nat.ofDigitChars 10 digits 0 := rfl

theorem digitsValue_zeros_append (count : Nat) (digits : List Char) :
    digitsValue (List.replicate count '0' ++ digits) = digitsValue digits := by
  simp [digitsValue_eq_ofDigitChars, Nat.ofDigitChars_append]

theorem digitsValue_append_zeros (digits : List Char) (count : Nat) :
    digitsValue (digits ++ List.replicate count '0') = 10 ^ count * digitsValue digits := by
  simp [digitsValue_eq_ofDigitChars, Nat.ofDigitChars_append]

theorem digitsValue_toDigits (n : Nat) : digitsValue (Nat.toDigits 10 n) = n := by
  simp [digitsValue_eq_ofDigitChars]

theorem isDigit_of_mem_zeros {count : Nat} {c : Char} (member : c ∈ List.replicate count '0') :
    c.isDigit := by
  rw [(List.mem_replicate.mp member).2]
  decide

namespace Decimal

theorem isDigit_of_mem_digitText {d : Decimal} {c : Char} (member : c ∈ d.digitText) : c.isDigit :=
  Nat.isDigit_of_mem_toDigits (by decide) (by decide) member

/-- Zeros at the end of the digits count as much as the exponent. -/
theorem magnitude?_zeros (digits count : Nat) (exponent : Int) :
    magnitude? ⟨10 ^ count * digits, exponent⟩ = magnitude? ⟨digits, exponent + count⟩ := by
  induction count generalizing exponent with
  | zero => simp
  | succ count ih =>
    rw [Nat.pow_succ', Nat.mul_assoc, magnitude?_shift, ih, Int.add_assoc]
    congr 2
    omega

private theorem scanNumber_whole (d : Decimal) (whole : 0 ≤ d.exponent) {c : Char}
    {text rest : List Char}
    (shape : d.digitText = c :: text) (digits : ∀ c ∈ d.digitText, c.isDigit)
    (stop : Stops continuesNumber rest) :
    ∃ value, scanNumber (c :: (text ++ List.replicate d.exponent.toNat '0') ++ rest) =
      .number false value rest ∧ value.magnitude? = d.magnitude? := by
  rw [shape] at digits
  refine ⟨_, scanNumber_digits ?_ stop, ?_⟩
  · intro digit member
    rcases List.mem_append.mp (List.cons_append ▸ member) with member | member
    · exact digits digit member
    · exact isDigit_of_mem_zeros member
  · rw [← List.cons_append, ← shape, digitsValue_append_zeros, digitText, digitsValue_toDigits,
      magnitude?_zeros]
    congr 2
    omega

/-- A written fraction is a literal of its value, and begins with a digit. -/
theorem scanNumber_positionalText (d : Decimal) {rest : List Char}
    (stop : Stops continuesNumber rest) :
    ∃ c text value, d.positionalText [] = c :: text ∧ c.isDigit ∧
      scanNumber (c :: text ++ rest) = .number false value rest ∧
      value.magnitude? = d.magnitude? := by
  have digits : ∀ c ∈ d.digitText, c.isDigit := fun _ member => isDigit_of_mem_digitText member
  obtain ⟨c, text, shape⟩ : ∃ c text, d.digitText = c :: text :=
    List.exists_cons_of_ne_nil Nat.toDigits_ne_nil
  have first : c.isDigit := digits c (shape ▸ List.mem_cons_self ..)
  simp only [positionalText]
  split
  · rename_i whole
    obtain ⟨value, scanned, same⟩ := scanNumber_whole d whole shape digits stop
    exact ⟨c, _, value, by simp [shape], first, scanned, same⟩
  · rename_i fraction
    have places : (-d.exponent).toNat = -d.exponent := by omega
    split
    · rename_i point
      -- The point falls among the digits, at least one of which stands before it.
      have before : (d.digitText.take (d.digitText.length - (-d.exponent).toNat)) =
          c :: text.take (d.digitText.length - (-d.exponent).toNat - 1) := by
        obtain ⟨n, count⟩ : ∃ n, d.digitText.length - (-d.exponent).toNat = n + 1 :=
          ⟨d.digitText.length - (-d.exponent).toNat - 1, by omega⟩
        rw [count, shape, List.take_succ_cons, Nat.add_sub_cancel]
      refine ⟨c, text.take (d.digitText.length - (-d.exponent).toNat - 1) ++
        '.' :: d.digitText.drop (d.digitText.length - (-d.exponent).toNat), _,
        by rw [before, List.cons_append], first, scanNumber_fraction ?_ ?_ stop, ?_⟩
      · rw [← before]
        exact fun digit member => digits digit (List.mem_of_mem_take member)
      · exact fun digit member => digits digit (List.mem_of_mem_drop member)
      · rw [← before, List.take_append_drop, digitText, digitsValue_toDigits, ← digitText,
          List.length_drop]
        congr 2
        omega
    · rename_i small
      refine ⟨'0', '.' :: (List.replicate ((-d.exponent).toNat - d.digitText.length) '0' ++
        d.digitText), _, rfl, by decide, @scanNumber_fraction _ [] _ _ ?_ ?_ stop, ?_⟩
      · simp
      · intro digit member
        rcases List.mem_append.mp member with member | member
        · exact isDigit_of_mem_zeros member
        · exact digits digit member
      · have zeros := digitsValue_zeros_append
          ((-d.exponent).toNat - d.digitText.length + 1) d.digitText
        rw [List.replicate_succ, List.cons_append] at zeros
        rw [List.singleton_append, zeros, digitText, digitsValue_toDigits,
          ← digitText, List.length_append, List.length_replicate]
        congr 2
        omega

end Decimal

/-! ## Numbers -/

namespace Binary64

theorem ofDecimal_of_magnitude? {negative : Bool} {d : Decimal} {x : Magnitude}
    (same : d.magnitude? = some x) : ofDecimal negative d = .finite negative x := by
  rw [ofDecimal, same]

theorem exists_magnitude?_of_isFinite {negative : Bool} {d : Decimal}
    (finite : (ofDecimal negative d).isFinite) : ∃ x, d.magnitude? = some x := by
  rw [ofDecimal] at finite
  split at finite
  · exact ⟨_, ‹_›⟩
  · cases finite

/-- A finite number is written as a literal of the same number, whatever follows that does not go on
with it. -/
theorem scanNumber_chars (negative : Bool) (x : Magnitude) {rest : List Char}
    (stop : Stops continuesNumber rest) :
    ∃ value, scanNumber ((finite negative x).chars .plain ++ rest) = .number negative value rest ∧
      ofDecimal negative value = .finite negative x := by
  obtain ⟨d, written, same⟩ : ∃ d : Decimal,
      NumberForm.plain.decimalText (if x = .zero then ⟨0, 0⟩ else Decimal.shortest .upward x) =
        d.positionalText [] ∧ d.magnitude? = some x := by
    refine ⟨_, rfl, ?_⟩
    split
    · rename_i zero
      simp [zero, Decimal.magnitude?]
    · exact Decimal.magnitude?_shortest ..
  obtain ⟨c, text, value, shape, digit, scanned, value_eq⟩ :=
    Decimal.scanNumber_positionalText d stop
  refine ⟨value, ?_, ofDecimal_of_magnitude? (value_eq.trans same)⟩
  have tie : NumberForm.plain.tie = .upward := rfl
  cases negative with
  | false => simpa only [chars, tie, written, shape, Bool.false_eq_true, if_false] using scanned
  | true =>
    simp only [chars, tie, written, shape, if_true]
    exact scanNumber_minus digit scanned

theorem exists_of_isFinite {x : Binary64} (finite : x.isFinite) :
    ∃ negative magnitude, x = .finite negative magnitude := by
  cases x with
  | finite negative magnitude => exact ⟨negative, magnitude, rfl⟩
  | _ => cases finite

theorem numberOfText?_chars {x : Binary64} (finite : x.isFinite) :
    numberOfText? (x.chars .plain) = some x := by
  obtain ⟨negative, magnitude, rfl⟩ := exists_of_isFinite finite
  obtain ⟨value, scanned, same⟩ := scanNumber_chars negative magnitude stops_nil
  rw [List.append_nil] at scanned
  simp only [numberOfText?, scanned, same]

/-! ## The characters of a number -/

theorem mem_positionalText {d : Decimal} {c : Char} (member : c ∈ d.positionalText []) :
    c.isDigit ∨ c = '.' := by
  have digits : c ∈ d.digitText → c.isDigit := Decimal.isDigit_of_mem_digitText
  have zeros {count : Nat} : c ∈ List.replicate count '0' → c.isDigit := isDigit_of_mem_zeros
  simp only [Decimal.positionalText] at member
  split at member
  · rw [List.append_nil] at member
    rcases List.mem_append.mp member with member | member
    · exact .inl (digits member)
    · exact .inl (zeros member)
  · split at member
    · rcases List.mem_append.mp member with member | member
      · exact .inl (digits (List.mem_of_mem_take member))
      · rcases List.mem_cons.mp member with point | member
        · exact .inr point
        · exact .inl (digits (List.mem_of_mem_drop member))
    · rcases List.mem_cons.mp member with zero | member
      · exact .inl (zero ▸ by decide)
      · rcases List.mem_cons.mp member with point | member
        · exact .inr point
        · rcases List.mem_append.mp member with member | member
          · exact .inl (zeros member)
          · exact .inl (digits member)

/-- A finite number is written with digits, a point and a minus. -/
theorem mem_chars {x : Binary64} (finite : x.isFinite) {c : Char} (member : c ∈ x.chars .plain) :
    c.isDigit ∨ c = '.' ∨ c = '-' := by
  obtain ⟨negative, magnitude, rfl⟩ := exists_of_isFinite finite
  have digits (d : Decimal) (member : c ∈ NumberForm.plain.decimalText d) :
      c.isDigit ∨ c = '.' ∨ c = '-' := (mem_positionalText member).imp_right .inl
  cases negative with
  | false => exact digits _ member
  | true =>
    rcases List.mem_cons.mp member with minus | member
    · exact .inr (.inr minus)
    · exact digits _ member

/-- The characters of a number, whichever it is, are visible. -/
theorem isVisible_of_mem_chars {x : Binary64} {c : Char} (member : c ∈ x.chars .plain) :
    Text.isVisible c := by
  cases finite : x.isFinite with
  | true =>
    rcases mem_chars finite member with digit | rfl | rfl
    · exact Text.isVisible_of_isDigit digit
    · decide
    · decide
  | false =>
    have names : ∀ c ∈ "NaN-inf".toList, Text.isVisible c := by decide
    cases x with
    | finite negative magnitude => cases finite
    | nan => exact names c (List.mem_append_left _ member)
    | infinite negative =>
      apply names c
      cases negative with
      | false => exact List.mem_append_right "NaN-".toList member
      | true => exact List.mem_append_right "NaN".toList member

/-- Every number is read back from its text. -/
theorem numberOfText?_trim_chars (x : Binary64) :
    numberOfText? (Text.trim (x.chars .plain)) = some x := by
  rw [Text.trim_of_isVisible fun _ => isVisible_of_mem_chars]
  cases finite : x.isFinite with
  | true => exact numberOfText?_chars finite
  | false =>
    cases x with
    | finite negative magnitude => cases finite
    | nan => decide
    | infinite negative => cases negative <;> decide

theorem chars_ne_nil (x : Binary64) : x.chars .plain ≠ [] := by
  intro empty
  have read := numberOfText?_trim_chars x
  rw [empty] at read
  cases read

end Binary64

end CartoStyle
