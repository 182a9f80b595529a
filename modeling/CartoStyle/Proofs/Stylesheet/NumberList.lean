import CartoStyle.Proofs.Stylesheet.NumberRow

/-!
# Dash lengths and rotations read back

What is written for finite numbers is a row of literals with commas between them, one layout out of
many, and is read like all of them (`splitNumbers?_literals`, `splitNumbers?_joinNumbers`). A
rotation is taken apart at its unit (`rotation?_rotationText`). Only finite numbers are read there,
and no list is empty.
-/

namespace CartoStyle.Stylesheet

open Text (Stops stops_cons stops_nil skipSpace)

theorem scanBinary64?_chars {x : Binary64} (finite : x.isFinite) {rest : List Char}
    (stop : Stops continuesNumber rest) :
    scanBinary64? (x.chars .plain ++ rest) = some (x, rest) := by
  obtain ⟨negative, magnitude, rfl⟩ := Binary64.exists_of_isFinite finite
  obtain ⟨value, scanned, same⟩ := Binary64.scanNumber_chars negative magnitude stop
  rw [scanBinary64?, scanned]
  simp only [same]

theorem skipSpace_chars (x : Binary64) (rest : List Char) :
    skipSpace (x.chars .plain ++ rest) = x.chars .plain ++ rest := by
  apply Text.skipSpace_of_stops
  rw [Text.stops_append_of_ne_nil (Binary64.chars_ne_nil _)]
  intro c next
  have member := List.mem_of_mem_head? next
  exact Text.not_isSpace_of_isVisible (Binary64.isVisible_of_mem_chars member)

/-! ## Lists -/

/-- A finite number is written as a literal of itself. -/
theorem isLiteral_chars {x : Binary64} (finite : x.isFinite) : IsLiteral (x.chars .plain) x := by
  obtain ⟨negative, magnitude, rfl⟩ := Binary64.exists_of_isFinite finite
  obtain ⟨fraction, scanned, same⟩ := Binary64.scanNumber_chars negative magnitude stops_nil
  obtain ⟨numeral, written, shape⟩ := exists_isNumeral scanned
  rw [List.append_nil, List.append_nil] at shape
  exact ⟨negative, fraction, shape ▸ written, same.symm⟩

theorem toList_joinNumbers (values : List Binary64) :
    (joinNumbers values).toList =
      [','].intercalate (values.map fun value => value.chars .plain) := by
  rw [joinNumbers, String.toList_intercalate, List.map_map]
  congr 1
  apply List.map_congr_left
  intro value _
  exact String.toList_ofList

theorem isRow_intercalate {values : List Binary64} (nonempty : values ≠ [])
    (finite : ∀ value ∈ values, value.isFinite) :
    IsRow IsLiteral ([','].intercalate (values.map fun value => value.chars .plain)) values := by
  induction values with
  | nil => exact absurd rfl nonempty
  | cons first others ih =>
    have here := isLiteral_chars (finite first (List.mem_cons_self ..))
    cases others with
    | nil =>
      rw [List.map_singleton, List.intercalate_singleton]
      exact .one here
    | cons second others =>
      have rest := ih (by simp) fun value member => finite value (List.mem_cons_of_mem _ member)
      have comma : IsSeparator [','] := @IsSeparator.comma [] [] (by simp) (by simp)
      rw [List.map_cons, List.map_cons, List.intercalate_cons_cons, List.append_assoc]
      exact .more here comma rest

/-- What is written for finite numbers is a list of literals, with no space in it. -/
theorem isListing_joinNumbers {values : List Binary64} (nonempty : values ≠ [])
    (finite : ∀ value ∈ values, value.isFinite) :
    IsListing IsLiteral (joinNumbers values).toList values := by
  have row := isRow_intercalate nonempty finite
  rw [← toList_joinNumbers] at row
  simpa using @IsListing.within IsLiteral [] _ [] _ (by simp) row (by simp)

/-- A list of literals is read in any layout. -/
theorem splitNumbers?_of_isListing {text : String} {values : List Binary64}
    (listing : IsListing IsLiteral text.toList values) : splitNumbers? text = some values :=
  splitNumbers?_eq_some_iff.mpr (listing.mono fun _ _ _ literal => .inl literal)

/-- Where no letter could begin the name of a value without digits, only literals are read. -/
theorem isListing_of_splitNumbers? {text : String} {values : List Binary64}
    (plain : ∀ c ∈ text.toList, c ∉ nameLetters) (found : splitNumbers? text = some values) :
    IsListing IsLiteral text.toList values := by
  refine (splitNumbers?_eq_some_iff.mp found).mono fun part value within number => ?_
  rcases number with literal | name
  · exact literal
  · obtain ⟨c, letters, rfl, first⟩ := name.exists_eq_cons
    exact absurd first (plain c (within (List.mem_cons_self ..)))

/-- A list of finite numbers is read back from its text, unless it is empty. -/
theorem splitNumbers?_joinNumbers {values : List Binary64} (nonempty : values ≠ [])
    (finite : ∀ value ∈ values, value.isFinite) :
    splitNumbers? (joinNumbers values) = some values :=
  splitNumbers?_of_isListing (isListing_joinNumbers nonempty finite)

/-- A list of literals is read in any layout, and of the texts without a letter that could begin the
name of a value without digits no other is. What is written for finite numbers is read back. -/
theorem splitNumbers?_literals :
    (∀ (text : String) (values : List Binary64), IsListing IsLiteral text.toList values →
      splitNumbers? text = some values) ∧
    (∀ text : String, (∀ c ∈ text.toList, c ∉ nameLetters) →
      (∀ values, ¬ IsListing IsLiteral text.toList values) → splitNumbers? text = none) ∧
    ∀ values : List Binary64, values ≠ [] → (∀ value ∈ values, value.isFinite) →
      splitNumbers? (joinNumbers values) = some values := by
  refine ⟨fun _ _ => splitNumbers?_of_isListing, fun text plain unlisted => ?_,
    fun _ => splitNumbers?_joinNumbers⟩
  cases found : splitNumbers? text with
  | none => rfl
  | some values => exact absurd (isListing_of_splitNumbers? plain found) (unlisted values)

/-- Three numbers with a comma in space and a line break between them. -/
def spacedDashes : String := " +5 ,\t.5e1\n1. "

/-- The numbers of `spacedDashes`. -/
def spacedLengths : List Binary64 :=
  [.ofDecimal false ⟨5, 0⟩, .ofDecimal false ⟨5, 0⟩, .ofDecimal false ⟨1, 0⟩]

theorem isListing_spacedDashes : IsListing IsLiteral spacedDashes.toList spacedLengths := by
  have five : IsMantissa ['5'] ['5'] 0 := .whole (by decide) (by decide)
  have half : IsMantissa ['.', '5'] ['5'] 1 :=
    @IsMantissa.point [] ['5'] (by decide) (by decide) (by decide)
  have one : IsMantissa ['1', '.'] ['1'] 0 :=
    @IsMantissa.point ['1'] [] (by decide) (by decide) (by decide)
  have tenfold : IsExponent ['e', '1'] 1 :=
    @IsExponent.digits 'e' [] ['1'] false rfl .absent (by decide) (by decide)
  have comma : IsSeparator [' ', ',', '\t'] :=
    @IsSeparator.comma [' '] ['\t'] (by decide) (by decide)
  have line : IsSeparator ['\n'] := .space (by decide) (by decide)
  have first : IsLiteral ['+', '5'] (.ofDecimal false ⟨5, 0⟩) :=
    ⟨_, _, .parts .plus five .absent, rfl⟩
  have second : IsLiteral ['.', '5', 'e', '1'] (.ofDecimal false ⟨5, 0⟩) :=
    ⟨_, _, .parts .absent half tenfold, rfl⟩
  have third : IsLiteral ['1', '.'] (.ofDecimal false ⟨1, 0⟩) :=
    ⟨_, _, .parts .absent one .absent, rfl⟩
  exact @IsListing.within IsLiteral [' '] _ [' '] _ (by decide)
    (.more first comma (.more second line (.one third))) (by decide)

theorem splitNumbers?_literals_spacedDashes :
    splitNumbers? spacedDashes = some spacedLengths ∧ splitNumbers? "5-2" = none ∧
      splitNumbers? (joinNumbers [.finite false .zero, .finite true .zero]) =
        some [.finite false .zero, .finite true .zero] := by
  have unlisted (values : List Binary64) : ¬ IsListing IsLiteral "5-2".toList values := by
    intro listing
    have refused : splitNumbers? "5-2" = none := by cbv
    rw [splitNumbers?_of_isListing listing] at refused
    cases refused
  obtain ⟨listed, otherwise, written⟩ := splitNumbers?_literals
  exact ⟨listed _ _ isListing_spacedDashes, otherwise _ (by decide) unlisted,
    written _ (by decide) (by decide)⟩

/-- No list is read from the text of an empty one. -/
theorem splitNumbers?_joinNumbers_nil : splitNumbers? (joinNumbers []) = none := by
  have nothing : (joinNumbers []).toList = [] := toList_joinNumbers []
  rw [splitNumbers?, nothing, Text.skipSpace, List.dropWhile_nil, numbersFrom?]
  rfl

theorem isVisible_of_mem_joinNumbers {values : List Binary64} {c : Char}
    (member : c ∈ (joinNumbers values).toList) : Text.isVisible c := by
  rw [toList_joinNumbers] at member
  induction values with
  | nil => cases member
  | cons first others ih =>
    cases others with
    | nil => exact Binary64.isVisible_of_mem_chars (by simpa using member)
    | cons second others =>
      rw [List.map_cons, List.map_cons, List.intercalate_cons_cons] at member
      rcases List.mem_append.mp member with front | rest
      · rcases List.mem_append.mp front with inside | comma
        · exact Binary64.isVisible_of_mem_chars inside
        · rw [List.mem_singleton.mp comma]
          decide
      · exact ih rest

/-! ## Rotations -/

theorem toList_rotationText (degrees : Binary64) :
    (rotationText degrees).toList =
      "rotate(".toList ++ (degrees.chars .plain ++ "deg)".toList) := by
  have parts : rotationText degrees = "rotate(" ++ degrees.text ++ "deg)" := rfl
  have inner : degrees.text.toList = degrees.chars .plain := String.toList_ofList
  rw [parts, String.toList_append, String.toList_append, inner, List.append_assoc]

/-- A rotation by a finite number of degrees is read back from its text. -/
theorem rotation?_rotationText {degrees : Binary64} (finite : degrees.isFinite) :
    rotation? (rotationText degrees) = some degrees := by
  have opened : afterWord? "rotate(" ("rotate(".toList ++ (degrees.chars .plain ++ "deg)".toList)) =
      some (degrees.chars .plain ++ "deg)".toList) := by
    simp [afterWord?]
  have scanned := scanBinary64?_chars finite (show Stops continuesNumber "deg)".toList by
    exact stops_cons.mpr rfl)
  have front : skipSpace ("rotate(".toList ++ (degrees.chars .plain ++ "deg)".toList)) =
      "rotate(".toList ++ (degrees.chars .plain ++ "deg)".toList) :=
    Text.skipSpace_of_stops (stops_cons.mpr rfl)
  rw [rotation?, toList_rotationText, front, opened, Option.bind_eq_bind, Option.bind_some,
    skipSpace_chars, scanned]
  rfl

theorem isVisible_of_mem_rotationText {degrees : Binary64} {c : Char}
    (member : c ∈ (rotationText degrees).toList) : Text.isVisible c := by
  rw [toList_rotationText] at member
  rcases List.mem_append.mp member with front | rest
  · exact (show ∀ c ∈ "rotate(".toList, Text.isVisible c by decide) c front
  · rcases List.mem_append.mp rest with inside | unit
    · exact Binary64.isVisible_of_mem_chars inside
    · exact (show ∀ c ∈ "deg)".toList, Text.isVisible c by decide) c unit

end CartoStyle.Stylesheet
