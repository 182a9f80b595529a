import CartoStyle.Decimal.Form
import CartoStyle.Decimal.Literal
import CartoStyle.Text.Basic

/-!
# Numbers in texts

A list of dash lengths is written with commas and read with commas, space or both between the
numbers. A rotation is `rotate(45deg)`, where the unit may be left out. In both, a number may also
be one of the names of the values without digits, but then it has no sign.

Every number takes at least one character (`scanBinary64?_shortens`).
-/

namespace CartoStyle.Stylesheet

/-- The number at the front of a text. -/
def scanBinary64? (text : List Char) : Option (Binary64 × List Char) :=
  match scanNumber text with
  | .number negative value rest => some (.ofDecimal negative value, rest)
  | .dangling => none
  | .absent => scanNamed? text

theorem length_dropWord?_lt {w : Char} {word text rest : List Char}
    (found : dropWord? (w :: word) text = some rest) : rest.length < text.length := by
  induction word generalizing w text with
  | nil =>
    cases text with
    | nil => cases found
    | cons c text =>
      simp only [dropWord?] at found
      split at found
      · cases found; simp
      · cases found
  | cons next word ih =>
    cases text with
    | nil => cases found
    | cons c text =>
      rw [dropWord?] at found
      split at found
      · have := ih found
        simp only [List.length_cons]
        omega
      · cases found

theorem scanBinary64?_shortens {text rest : List Char} {value : Binary64}
    (found : scanBinary64? text = some (value, rest)) : rest.length < text.length := by
  unfold scanBinary64? at found
  split at found
  · cases found; exact scanNumber_shortens ‹_›
  · cases found
  · unfold scanNamed? at found
    split at found
    all_goals first | cases found; exact length_dropWord?_lt ‹_› | cases found

/-- What follows the separator at the front of a text: a comma with any space around it, or some
space. -/
def skipSeparator? (text : List Char) : Option (List Char) :=
  match Text.skipSpace text with
  | ',' :: rest => some (Text.skipSpace rest)
  | rest => if text.head?.any Text.isSpace then some rest else none

theorem length_skipSeparator?_le {text rest : List Char} (found : skipSeparator? text = some rest) :
    rest.length ≤ text.length := by
  unfold skipSeparator? at found
  split at found
  · rename_i inner same
    cases found
    have one := Text.length_skipSpace_le inner
    have two := Text.length_skipSpace_le text
    simp only [same, List.length_cons] at two
    omega
  · split at found
    · cases found; exact Text.length_skipSpace_le text
    · cases found

/-- The numbers of a text that begins with one and holds nothing else. -/
def numbersFrom? (text : List Char) : Option (List Binary64) :=
  match found : scanBinary64? text with
  | none => none
  | some (value, rest) =>
    if (Text.skipSpace rest).isEmpty then some [value]
    else match next : skipSeparator? rest with
      | none => none
      | some after =>
        have := scanBinary64?_shortens found
        have := length_skipSeparator?_le next
        (numbersFrom? after).map (value :: ·)
termination_by text.length

/-- The numbers that a text lists. -/
def splitNumbers? (text : String) : Option (List Binary64) :=
  numbersFrom? (Text.skipSpace text.toList)

/-- A list of numbers as a text. -/
def joinNumbers (values : List Binary64) : String := ",".intercalate (values.map Binary64.text)

/-- A rotation by some degrees as a text. -/
def rotationText (degrees : Binary64) : String := s!"rotate({degrees.text}deg)"

/-- What follows a word, if a text begins with it. -/
def afterWord? (word : String) (text : List Char) : Option (List Char) :=
  if word.toList.isPrefixOf text then some (text.drop word.toList.length) else none

/-- The degrees of the rotation that a text is. -/
def rotation? (text : String) : Option Binary64 := do
  let inner ← afterWord? "rotate(" (Text.skipSpace text.toList)
  let (degrees, rest) ← scanBinary64? (Text.skipSpace inner)
  let rest := Text.skipSpace rest
  let closing ← afterWord? ")" (Text.skipSpace ((afterWord? "deg" rest).getD rest))
  if (Text.skipSpace closing).isEmpty then some degrees else none

end CartoStyle.Stylesheet
