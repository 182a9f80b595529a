import CartoStyle.Json.Render
import CartoStyle.Proofs.Json.Literal

/-!
# Written numbers are literals

A number that has digits is written as a literal of JSON, with a point and zeros or with an
exponent: its first digit is no zero, unless it is the only one before the point, and digits stand
on both sides of the point and behind the exponent mark. The fraction that the literal spells is
nearest to the number (`Number.exists_scanLiteral`); whether reading arrives at the nearest number
is another matter (`Number.isKept`), and so is whether it arrives at all (`Number.isReadable`).
-/

namespace CartoStyle.Json

open Text (Stops stops_nil stops_cons takeWhile_append_of_stops dropWhile_append_of_stops
  takeWhile_of_forall dropWhile_of_forall)

namespace Literal

/-- The fraction that a literal spells, without its sign. -/
def decimal (literal : Literal) : Decimal :=
  ⟨digitsValue (literal.whole ++ literal.fraction),
    literal.exponent.getD 0 - literal.fraction.length⟩

/-- Whether a literal has a point or an exponent. -/
def isBroken (literal : Literal) : Bool := !literal.fraction.isEmpty || literal.exponent.isSome

end Literal

/-- A text that goes on with the fraction and the exponent of a literal, to its end. -/
def EndsLiteral (literal : Literal) (tail : List Char) : Prop :=
  ∀ negative whole, scanFraction negative whole tail =
    .literal { literal with negative := negative, whole := whole } []

section Scanning

variable {literal : Literal} {digits fraction tail : List Char} {exponent : Option Int}

/-- After the whole part may stand a point and digits. -/
theorem endsLiteral_point (all : ∀ d ∈ literal.fraction, d.isDigit)
    (nonempty : literal.fraction ≠ [])
    (stop : Stops Char.isDigit tail) (ends : takeExponent tail = .ok (literal.exponent, [])) :
    EndsLiteral literal ('.' :: (literal.fraction ++ tail)) := by
  intro negative whole
  simp [scanFraction, takeWhile_append_of_stops all stop, dropWhile_append_of_stops all stop,
    nonempty, ends]

theorem endsLiteral_exponent (pointless : literal.fraction = []) (other : tail.head? ≠ some '.')
    (ends : takeExponent tail = .ok (literal.exponent, [])) : EndsLiteral literal tail := by
  intro negative whole
  unfold scanFraction
  split
  · exact absurd rfl other
  · rw [ends, pointless]

/-- A literal may end behind the digits after the point. -/
theorem endsLiteral_fraction (all : ∀ d ∈ literal.fraction, d.isDigit)
    (nonempty : literal.fraction ≠ []) (plain : literal.exponent = none) :
    EndsLiteral literal ('.' :: literal.fraction) := by
  simpa using endsLiteral_point all nonempty stops_nil (plain ▸ rfl)

/-- An exponent mark with a sign and digits is read as the exponent. -/
theorem takeExponent_toDigits (exponent : Int) :
    takeExponent ('e' :: (if exponent < 0 then '-' else '+') :: Nat.toDigits 10 exponent.natAbs) =
      .ok (some exponent, []) := by
  have all : ∀ d ∈ Nat.toDigits 10 exponent.natAbs, d.isDigit :=
    fun d => Nat.isDigit_of_mem_toDigits (by decide) (by decide)
  have nonempty : Nat.toDigits 10 exponent.natAbs ≠ [] := Nat.toDigits_ne_nil
  have size : (if exponent < 0 then -(exponent.natAbs : Int) else exponent.natAbs) = exponent := by
    split <;> omega
  have sign : takeSign ((if exponent < 0 then '-' else '+') :: Nat.toDigits 10 exponent.natAbs) =
      (decide (exponent < 0), Nat.toDigits 10 exponent.natAbs) := by
    by_cases negative : exponent < 0 <;> simp [negative, takeSign]
  have mark : ('e' == 'e' || 'e' == 'E') = true := rfl
  simp only [takeExponent, mark, if_true, sign, takeWhile_of_forall all, dropWhile_of_forall all,
    List.isEmpty_eq_false_iff.mpr nonempty, Bool.false_eq_true, if_false, decide_eq_true_eq,
    digitsValue_toDigits, size]

/-- A text is the whole part of a literal, without a needless zero in front, and a tail that goes on
with the literal to its end. -/
structure IsUnsigned (literal : Literal) (tail : List Char) : Prop where
  nonempty : literal.whole ≠ []
  digits : ∀ d ∈ literal.whole, d.isDigit
  leading : ∀ others, literal.whole = '0' :: others → others = []
  stops : Stops Char.isDigit tail
  ends : EndsLiteral literal tail

/-- Such a text is the literal, also with a minus in front of it. -/
theorem IsUnsigned.scanLiteral_eq (unsigned : IsUnsigned literal tail) (negative : Bool) :
    scanLiteral (if negative then '-' :: (literal.whole ++ tail) else literal.whole ++ tail) =
      .literal { literal with negative := negative } [] := by
  have sign :
      takeMinus (if negative then '-' :: (literal.whole ++ tail) else literal.whole ++ tail) =
      (negative, literal.whole ++ tail) := by
    cases negative with
    | true => rfl
    | false =>
      obtain ⟨c, others, shape⟩ := List.exists_cons_of_ne_nil unsigned.nonempty
      have digit := unsigned.digits c (shape ▸ List.mem_cons_self ..)
      have positive : c ≠ '-' := by
        rintro rfl
        simp at digit
      rw [if_neg Bool.false_ne_true, shape, List.cons_append, takeMinus]
      simpa using positive
  simp only [scanLiteral, sign, takeWhile_append_of_stops unsigned.digits unsigned.stops,
    dropWhile_append_of_stops unsigned.digits unsigned.stops]
  split
  · rename_i empty
    exact absurd empty unsigned.nonempty
  · rename_i zeros
    exact absurd (unsigned.leading _ zeros) (List.cons_ne_nil _ _)
  · exact unsigned.ends negative literal.whole

end Scanning

/-! ## Digits -/

theorem digitChar_ne_zero : ∀ n < 10, n ≠ 0 → Nat.digitChar n ≠ '0' := by decide

/-- Digits begin with a zero only for zero. -/
theorem exists_toDigits {n : Nat} (positive : n ≠ 0) :
    ∃ c others, Nat.toDigits 10 n = c :: others ∧ c ≠ '0' := by
  induction n using Nat.strongRecOn with
  | ind n ih =>
    by_cases small : n < 10
    · exact ⟨_, _, Nat.toDigits_of_lt_base small, digitChar_ne_zero n small positive⟩
    · obtain ⟨c, others, shape, leading⟩ := ih (n / 10) (by omega) (by omega)
      rw [Nat.toDigits_of_base_le (by decide) (Nat.le_of_not_lt small), shape]
      exact ⟨c, _, rfl, leading⟩

/-- The digits of a number are the whole part of a literal. -/
theorem eq_nil_of_toDigits {n : Nat} {others : List Char}
    (shape : Nat.toDigits 10 n = '0' :: others) : others = [] := by
  by_cases zero : n = 0
  · rw [zero] at shape
    exact (List.cons.inj shape).2.symm
  · obtain ⟨c, _, digits, leading⟩ := exists_toDigits zero
    rw [digits] at shape
    exact absurd (List.cons.inj shape).1 leading

/-! ## Fractions -/

section Fractions

variable {d : Decimal}

/-- A text is a literal without a sign, with a point or an exponent, for the magnitude of a
fraction. -/
def Spells (text : List Char) (d : Decimal) : Prop :=
  ∃ literal tail, text = literal.whole ++ tail ∧ IsUnsigned literal tail ∧ literal.isBroken ∧
    literal.decimal.magnitude? = d.magnitude?

theorem isDigit_zeros {count : Nat} : ∀ c ∈ List.replicate count '0', c.isDigit :=
  fun _ => isDigit_of_mem_zeros

theorem isDigit_digitText : ∀ c ∈ d.digitText, c.isDigit :=
  fun _ => Decimal.isDigit_of_mem_digitText

/-- A whole number is spelled with zeros for its exponent. -/
theorem spells_whole (plain : d.digits = 0 → d.exponent = 0) (whole : 0 ≤ d.exponent) :
    Spells (d.digitText ++ List.replicate d.exponent.toNat '0' ++ ".0".toList) d := by
  refine
    ⟨⟨false, d.digitText ++ List.replicate d.exponent.toNat '0', ['0'], none⟩, _, rfl, ?_, rfl, ?_⟩
  · refine ⟨List.append_ne_nil_of_left_ne_nil Nat.toDigits_ne_nil _, fun c member => ?_,
      fun others shape => ?_, stops_cons.mpr (by decide), endsLiteral_fraction ?_ ?_ rfl⟩
    · exact (List.mem_append.mp member).elim (isDigit_digitText c) (isDigit_zeros c)
    · by_cases zero : d.digits = 0
      · have only : d.digitText = ['0'] := by rw [Decimal.digitText, zero]; decide
        simp only [only, plain zero] at shape
        exact (List.cons.inj shape).2.symm
      · obtain ⟨c, rest, digits, leading⟩ := exists_toDigits zero
        rw [Decimal.digitText, digits, List.cons_append] at shape
        exact absurd (List.cons.inj shape).1 leading
    · exact fun c member => @isDigit_zeros 1 c member
    · exact List.cons_ne_nil _ _
  · have zeros : List.replicate d.exponent.toNat '0' ++ ['0'] =
        List.replicate (d.exponent.toNat + 1) '0' := List.replicate_succ'.symm
    simp only [Literal.decimal, List.append_assoc, zeros, digitsValue_append_zeros,
      Decimal.digitText, digitsValue_toDigits, Decimal.magnitude?_zeros]
    congr 2
    simp
    omega

/-- The point stands among the digits, at least one of which is before it. -/
theorem spells_point {places : Nat} (count : d.exponent = -places) (positive : 0 < places)
    (inside : places < d.digitText.length) :
    Spells (d.digitText.take (d.digitText.length - places) ++
      '.' :: d.digitText.drop (d.digitText.length - places)) d := by
  refine ⟨⟨false, d.digitText.take (d.digitText.length - places),
    d.digitText.drop (d.digitText.length - places), none⟩, _, rfl, ?_, ?_, ?_⟩
  · obtain ⟨n, before⟩ : ∃ n, d.digitText.length - places = n + 1 :=
      ⟨d.digitText.length - places - 1, by omega⟩
    refine ⟨?_, fun c member => isDigit_digitText c (List.mem_of_mem_take member),
      fun others shape => ?_, stops_cons.mpr (by decide), endsLiteral_fraction ?_ ?_ rfl⟩
    · exact List.take_eq_nil_iff.not.mpr fun empty => empty.elim (by omega) Nat.toDigits_ne_nil
    · obtain ⟨c, rest, digits⟩ := List.exists_cons_of_ne_nil (Nat.toDigits_ne_nil (n := d.digits))
      rw [before, Decimal.digitText, digits, List.take_succ_cons, List.cons.injEq] at shape
      rw [shape.1] at digits
      rw [← shape.2, eq_nil_of_toDigits digits, List.take_nil]
    · exact fun c member => isDigit_digitText c (List.mem_of_mem_drop member)
    · rw [Ne, List.drop_eq_nil_iff]
      omega
  · simp [Literal.isBroken]
    omega
  · rw [Literal.decimal, List.take_append_drop, Decimal.digitText, digitsValue_toDigits,
      ← Decimal.digitText, List.length_drop]
    congr 2
    simp
    omega

/-- The digits stand after the point, with zeros in front of them. -/
theorem spells_small {places : Nat} (count : d.exponent = -places)
    (outside : d.digitText.length ≤ places) :
    Spells ('0' :: '.' :: List.replicate (places - d.digitText.length) '0' ++ d.digitText) d := by
  refine ⟨⟨false, ['0'], List.replicate (places - d.digitText.length) '0' ++ d.digitText, none⟩,
    _, rfl, ?_, ?_, ?_⟩
  · refine ⟨List.cons_ne_nil _ _, ?_, fun others shape => (List.cons.inj shape).2.symm,
      stops_cons.mpr (by decide), endsLiteral_fraction ?_ ?_ rfl⟩
    · exact fun c member => @isDigit_zeros 1 c member
    · exact fun c member => (List.mem_append.mp member).elim (isDigit_zeros c) (isDigit_digitText c)
    · exact List.append_ne_nil_of_right_ne_nil _ Nat.toDigits_ne_nil
  · simp [Literal.isBroken, Decimal.digitText, Nat.toDigits_ne_nil]
  · have zeros := digitsValue_zeros_append (places - d.digitText.length + 1) d.digitText
    rw [List.replicate_succ, List.cons_append] at zeros
    rw [Literal.decimal, List.singleton_append, zeros, Decimal.digitText, digitsValue_toDigits,
      ← Decimal.digitText, List.length_append, List.length_replicate]
    congr 2
    simp
    omega

theorem spells_positionalText (plain : d.digits = 0 → d.exponent = 0) :
    Spells (d.positionalText ".0".toList) d := by
  simp only [Decimal.positionalText]
  split
  · exact spells_whole plain ‹_›
  · have count : d.exponent = -((-d.exponent).toNat : Int) := by omega
    split
    · exact spells_point count (by omega) ‹_›
    · exact spells_small count (by omega)

theorem spells_scientificText (positive : d.digits ≠ 0) : Spells d.scientificText d := by
  have ends := takeExponent_toDigits d.leadingExponent
  have stop : Stops Char.isDigit ('e' :: (if d.leadingExponent < 0 then '-' else '+') ::
      Nat.toDigits 10 d.leadingExponent.natAbs) := stops_cons.mpr (by decide)
  obtain ⟨c, others, shape, leading⟩ := exists_toDigits positive
  rw [← Decimal.digitText] at shape
  have digits : ∀ digit ∈ c :: others, digit.isDigit := shape ▸ isDigit_digitText
  have value : digitsValue (c :: others) = d.digits := by
    rw [← shape, Decimal.digitText, digitsValue_toDigits]
  have length : d.leadingExponent = others.length + d.exponent := by
    rw [Decimal.leadingExponent, shape, List.length_cons]
    omega
  have first : ∀ digit ∈ [c], digit.isDigit := fun digit member =>
    digits digit (List.mem_singleton.mp member ▸ List.mem_cons_self ..)
  have alone (rest : List Char) (single : [c] = '0' :: rest) : rest = [] :=
    (List.cons.inj single).2.symm
  have exact : Literal.decimal ⟨false, [c], others, some d.leadingExponent⟩ = d := by
    rw [Literal.decimal, List.singleton_append, value, Option.getD_some, length]
    cases d
    congr 1
    simp
  cases others with
  | nil =>
    refine ⟨⟨false, [c], [], some d.leadingExponent⟩, _, by rw [Decimal.scientificText, shape],
      ⟨List.cons_ne_nil _ _, first, alone, stop, endsLiteral_exponent rfl (by simp) ends⟩, rfl, ?_⟩
    rw [exact]
  | cons second rest =>
    have after : ∀ digit ∈ second :: rest, digit.isDigit :=
      fun digit member => digits digit (List.mem_cons_of_mem _ member)
    refine ⟨⟨false, [c], second :: rest, some d.leadingExponent⟩, _,
      by rw [Decimal.scientificText, shape]; rfl,
      ⟨List.cons_ne_nil _ _, first, alone, stops_cons.mpr (by decide),
        endsLiteral_point after (List.cons_ne_nil _ _) stop ends⟩, rfl, ?_⟩
    rw [exact]

end Fractions

/-! ## Numbers -/

theorem digits_shortest_ne_zero {tie : Tie} {x : Magnitude} (nonzero : x ≠ .zero) :
    (Decimal.shortest tie x).digits ≠ 0 := by
  intro zero
  have same := Decimal.magnitude?_shortest tie x
  rw [Decimal.magnitude?, if_pos (.inl zero)] at same
  exact nonzero (Option.some.inj same).symm

/-- The digits of a fraction are written as a literal of it. -/
theorem spells_decimalText {d : Decimal} (plain : d.digits = 0 → d = ⟨0, 0⟩) :
    Spells (numberForm.decimalText d) d := by
  have form : numberForm.decimalText d =
      if -5 ≤ d.leadingExponent ∧ d.leadingExponent ≤ 15 then d.positionalText ".0".toList
      else d.scientificText := by
    simp only [NumberForm.decimalText, numberForm, Bool.and_eq_true, decide_eq_true_eq]
  rw [form]
  split
  · exact spells_positionalText fun zero => congrArg Decimal.exponent (plain zero)
  · rename_i other
    refine spells_scientificText fun zero => other ?_
    rw [plain zero]
    decide

namespace Number

/-- The literal of a number that has digits. -/
def literal? (number : Number) : Option Literal :=
  match scanLiteral number.chars with
  | .literal literal [] => some literal
  | _ => none

/-- What a number is read as from its own literal, if it is read. -/
def reread? (number : Number) : Option Number := number.literal?.bind Literal.number?

/-- Whether a number is read back from its own literal. -/
def isKept (number : Number) : Bool := number.reread? == some number

theorem literal?_eq_some_iff {number : Number} {literal : Literal} :
    number.literal? = some literal ↔ scanLiteral number.chars = .literal literal [] := by
  rw [literal?]
  split
  · rename_i scanned
    rw [scanned]
    simp
  · rename_i other
    constructor
    · exact fun absent => absurd absent (Option.some_ne_none literal).symm
    · exact fun scanned => absurd scanned (other literal)

/-- A finite number is written as a literal to which it is nearest. -/
theorem exists_scanLiteral {x : Binary64} (finite : x.isFinite) :
    ∃ literal, scanLiteral (Number.fraction x).chars = .literal literal [] ∧ literal.isBroken ∧
      Binary64.ofDecimal literal.negative literal.decimal = x := by
  rw [chars, if_pos finite]
  obtain ⟨negative, magnitude, rfl⟩ := Binary64.exists_of_isFinite finite
  obtain ⟨d, spelled, same⟩ : ∃ d : Decimal,
      Spells (numberForm.decimalText
        (if magnitude = .zero then ⟨0, 0⟩ else Decimal.shortest .toEven magnitude)) d ∧
      d.magnitude? = some magnitude := by
    split
    · rename_i zero
      exact ⟨_, spells_decimalText fun _ => rfl, by rw [zero]; rfl⟩
    · rename_i nonzero
      exact ⟨_, spells_decimalText fun zero => absurd zero (digits_shortest_ne_zero nonzero),
        Decimal.magnitude?_shortest ..⟩
  obtain ⟨literal, tail, shape, unsigned, broken, value⟩ := spelled
  have tie : numberForm.tie = .toEven := rfl
  refine ⟨{ literal with negative := negative }, ?_, broken,
    Binary64.ofDecimal_of_magnitude? (value.trans same)⟩
  rw [Binary64.chars, tie, shape]
  exact unsigned.scanLiteral_eq negative

/-- A whole number is written as a literal of its digits. -/
theorem scanLiteral_whole (value : Int) : scanLiteral (Number.whole value).chars =
    .literal ⟨value < 0, Nat.toDigits 10 value.natAbs, [], none⟩ [] := by
  have unsigned : IsUnsigned ⟨false, Nat.toDigits 10 value.natAbs, [], none⟩ [] :=
    ⟨Nat.toDigits_ne_nil, fun c => Nat.isDigit_of_mem_toDigits (by decide) (by decide),
      fun _ => eq_nil_of_toDigits, stops_nil, endsLiteral_exponent rfl (by decide) rfl⟩
  have spelled : (Number.whole value).chars =
      if decide (value < 0) then '-' :: (Nat.toDigits 10 value.natAbs ++ [])
      else Nat.toDigits 10 value.natAbs ++ [] := by
    rw [chars, Int.toString_eq_repr, Int.repr_eq_if, List.append_nil]
    by_cases negative : value < 0
    · have size : (-value).toNat = value.natAbs := by omega
      rw [if_neg (by omega), if_pos (by simpa using negative), size, Nat.repr_eq_ofList_toDigits,
        String.toList_append, String.toList_ofList, String.toList_ofList]
      rfl
    · have size : value.toNat = value.natAbs := by omega
      rw [if_pos (by omega), if_neg (by simpa using negative), size, Nat.repr_eq_ofList_toDigits,
        String.toList_ofList]
  rw [spelled]
  exact unsigned.scanLiteral_eq _

/-- A number is written as its literal, or as `null` where it has none. -/
theorem literal?_cases (number : Number) :
    (∃ literal, number.literal? = some literal) ∨
      (number.chars = "null".toList ∧ number.literal? = none) := by
  cases number with
  | whole value => exact .inl ⟨_, literal?_eq_some_iff.mpr (scanLiteral_whole value)⟩
  | fraction x =>
    by_cases finite : x.isFinite
    · obtain ⟨literal, scanned, -⟩ := exists_scanLiteral finite
      exact .inl ⟨literal, literal?_eq_some_iff.mpr scanned⟩
    · have spelled : (Number.fraction x).chars = "null".toList := by rw [chars, if_neg finite]
      refine .inr ⟨spelled, ?_⟩
      rw [literal?, spelled]
      rfl

def isFraction : Number → Bool
  | .whole _ => false
  | .fraction _ => true

/-- The number with another fraction, if it is one. -/
def onFraction (change : Binary64 → Binary64) : Number → Number
  | .whole value => .whole value
  | .fraction x => .fraction (change x)

end Number

/-- What the literal of a number is read as; the number itself where it has none. -/
def reread (x : Binary64) : Binary64 := (Number.fraction x).reread?.elim x Number.value

namespace Number

/-- Whether a number is read from its own literal as a number of its kind. -/
def isReadable (number : Number) : Bool := number.reread? == some (number.onFraction reread)

variable {number : Number}

theorem isKept_iff : number.isKept ↔ number.reread? = some number := by
  rw [isKept, beq_iff_eq]

theorem isReadable_iff : number.isReadable ↔ number.reread? = some (number.onFraction reread) := by
  rw [isReadable, beq_iff_eq]

theorem exists_literal? (readable : number.isReadable) : ∃ literal,
    number.literal? = some literal ∧ literal.number? = some (number.onFraction reread) :=
  Option.bind_eq_some_iff.mp (isReadable_iff.mp readable)

/-- A number that is kept is readable. -/
theorem isReadable_of_isKept (kept : number.isKept) : number.isReadable := by
  rw [isKept_iff] at kept
  rw [isReadable_iff, kept]
  cases number with
  | whole value => rfl
  | fraction x => rw [onFraction, reread, kept, Option.elim_some, value]

/-- A readable number is kept if it is read as itself. -/
theorem isKept_iff_of_isReadable (readable : number.isReadable) :
    number.isKept ↔ number.onFraction reread = number := by
  rw [isKept_iff, isReadable_iff.mp readable, Option.some_inj]

end Number

end CartoStyle.Json
