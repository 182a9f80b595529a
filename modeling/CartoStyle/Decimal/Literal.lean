import CartoStyle.Decimal.Basic

/-!
# Number literals

A literal is an optional sign, digits with an optional fraction or a fraction alone (`1`, `1.`,
`1.5`, `.5`), and an optional exponent. `scanNumber` reads the literal at the front of a text and
says what follows it; an exponent mark without digits after it is an outcome of its own, since some
readers refuse the whole text for it. `numberOfText?` reads a text that is one literal and nothing
else, or one of the names of the values that have no digits.
-/

namespace CartoStyle

/-- What the front of a text is, read as a literal. -/
inductive NumberScan where
  /-- No literal begins here. -/
  | absent
  /-- A literal whose exponent mark has no digits. -/
  | dangling
  | number (negative : Bool) (value : Decimal) (rest : List Char)
deriving DecidableEq

/-- A text without a leading sign, and whether that sign was a minus. -/
def takeSign : List Char → Bool × List Char
  | '-' :: rest => (true, rest)
  | '+' :: rest => (false, rest)
  | text => (false, text)

/-- The fraction at the front of a text, point included: its digits and what follows. -/
def takeFraction : List Char → List Char × List Char
  | '.' :: rest => (rest.takeWhile Char.isDigit, rest.dropWhile Char.isDigit)
  | text => ([], text)

/-- The exponent at the front of a text, if there is one, and what follows it; where its mark has no
digits, the text in whose place they should stand. -/
def takeExponent (text : List Char) : Except (List Char) (Option Int × List Char) :=
  match text with
  | c :: rest =>
    if c == 'e' || c == 'E' then
      let (negative, unsigned) := takeSign rest
      let digits := unsigned.takeWhile Char.isDigit
      if digits.isEmpty then .error unsigned
      else
        let size : Int := digitsValue digits
        .ok (some (if negative then -size else size), unsigned.dropWhile Char.isDigit)
    else .ok (none, text)
  | [] => .ok (none, [])

/-- The literal at the front of a text. -/
def scanNumber (text : List Char) : NumberScan :=
  let (negative, unsigned) := takeSign text
  let whole := unsigned.takeWhile Char.isDigit
  let (fraction, afterFraction) := takeFraction (unsigned.dropWhile Char.isDigit)
  if whole.isEmpty && fraction.isEmpty then .absent
  else match takeExponent afterFraction with
    | .error _ => .dangling
    | .ok (exponent, rest) =>
      .number negative ⟨digitsValue (whole ++ fraction), exponent.getD 0 - fraction.length⟩ rest

/-! ## A literal takes at least one character -/

theorem length_dropWhile_lt {p : Char → Bool} {text : List Char}
    (nonempty : (text.takeWhile p).isEmpty = false) : (text.dropWhile p).length < text.length := by
  have parts := congrArg List.length (List.takeWhile_append_dropWhile (p := p) (l := text))
  have := List.length_pos_iff.mpr (List.isEmpty_eq_false_iff.mp nonempty)
  simp only [List.length_append] at parts
  omega

theorem length_takeSign_le (text : List Char) : (takeSign text).2.length ≤ text.length := by
  unfold takeSign
  split <;> simp

theorem length_takeFraction_le (text : List Char) : (takeFraction text).2.length ≤ text.length := by
  unfold takeFraction
  split
  · exact Nat.le_succ_of_le (List.dropWhile_suffix _).length_le
  · simp

theorem length_takeFraction_lt {text : List Char}
    (nonempty : (takeFraction text).1.isEmpty = false) :
    (takeFraction text).2.length < text.length := by
  unfold takeFraction at nonempty ⊢
  split
  · exact Nat.lt_succ_of_le (List.dropWhile_suffix _).length_le
  · simp at nonempty

theorem length_takeExponent_le {text rest : List Char} {exponent : Option Int}
    (found : takeExponent text = .ok (exponent, rest)) : rest.length ≤ text.length := by
  unfold takeExponent at found
  split at found
  · rename_i c tail
    split at found
    · simp only at found
      split at found
      · cases found
      · cases found
        have := (List.dropWhile_suffix (l := (takeSign tail).2) Char.isDigit).length_le
        have := length_takeSign_le tail
        simp only [List.length_cons]
        omega
    · cases found; simp
  · cases found; simp

theorem scanNumber_shortens {text rest : List Char} {negative : Bool} {value : Decimal}
    (found : scanNumber text = .number negative value rest) : rest.length < text.length := by
  unfold scanNumber at found
  simp only at found
  split at found
  · simp at found
  · rename_i nonempty
    split at found
    · simp at found
    · rename_i exponent after read
      cases found
      have sign := length_takeSign_le text
      have tail := length_takeExponent_le read
      have fraction := length_takeFraction_le ((takeSign text).2.dropWhile Char.isDigit)
      have whole := (List.dropWhile_suffix (l := (takeSign text).2) Char.isDigit).length_le
      cases absent : ((takeSign text).2.takeWhile Char.isDigit).isEmpty with
      | false => have := length_dropWhile_lt absent; omega
      | true =>
        simp only [absent, Bool.true_and, Bool.not_eq_true] at nonempty
        have := length_takeFraction_lt nonempty
        omega

/-! ## Numbers by name -/

/-- What follows a word at the front of a text; the case of letters does not count. -/
def dropWord? : List Char → List Char → Option (List Char)
  | [], text => some text
  | _ :: _, [] => none
  | w :: word, c :: text => if c.toLower == w then dropWord? word text else none

/-- The value without digits that is named at the front of a text, and what follows its name. -/
def scanNamed? (text : List Char) : Option (Binary64 × List Char) :=
  match dropWord? "nan".toList text, dropWord? "infinity".toList text,
      dropWord? "inf".toList text with
  | some rest, _, _ => some (.nan, rest)
  | none, some rest, _ => some (.infinite false, rest)
  | none, none, some rest => some (.infinite false, rest)
  | none, none, none => none

/-- The number that a whole text names. -/
def numberOfText? (text : List Char) : Option Binary64 :=
  match scanNumber text with
  | .number negative value [] => some (.ofDecimal negative value)
  | _ =>
    let (negative, unsigned) := takeSign text
    match scanNamed? unsigned with
    | some (value, []) => some (if negative then value.negate else value)
    | _ => none

end CartoStyle
