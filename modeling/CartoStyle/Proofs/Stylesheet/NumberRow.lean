import CartoStyle.Proofs.Decimal.Numeral
import CartoStyle.Stylesheet.NumberList

/-!
# Rows of numbers

Which texts list which numbers is said without a word on how they are read: a row is numbers with a
separator between neighbours (`IsRow`), a separator is a comma with any space around it or some
space (`IsSeparator`), and a listing is a row with any space in front of it and behind it
(`IsListing`). What counts as a number is left open there. The reader takes a text as a list exactly
where it is a listing of literals and of the names of values without digits
(`splitNumbers?_eq_some_iff`).

The two kinds of separator overlap, since space may stand in front of a comma, alone, or behind the
last number. No number begins with space or with a comma, so what stands between two of them is
always the whole run of both.
-/

namespace CartoStyle.Stylesheet

open Text (Stops stops_cons isSpace skipSpace skipSpace_append exists_eq_append_skipSpace
  isSpace_of_skipSpace_eq_nil)

/-! ## What lists are made of -/

/-- A decimal literal and the number that it is rounded to. -/
def IsLiteral (text : List Char) (value : Binary64) : Prop :=
  ∃ negative fraction, IsNumeral text negative fraction ∧ value = .ofDecimal negative fraction

/-- The name of a value without digits; the case of letters does not count. -/
inductive IsName : List Char → Binary64 → Prop
  | nan {text : List Char} (spelled : text.map Char.toLower = "nan".toList) : IsName text .nan
  | infinity {text : List Char} (spelled : text.map Char.toLower = "infinity".toList) :
      IsName text (.infinite false)
  | inf {text : List Char} (spelled : text.map Char.toLower = "inf".toList) :
      IsName text (.infinite false)

/-- A number, by its digits or by its name. -/
def IsNumber (text : List Char) (value : Binary64) : Prop :=
  IsLiteral text value ∨ IsName text value

/-- What may stand between two numbers. -/
inductive IsSeparator : List Char → Prop
  | comma {before after : List Char} (front : ∀ c ∈ before, isSpace c)
      (back : ∀ c ∈ after, isSpace c) : IsSeparator (before ++ ',' :: after)
  | space {gap : List Char} (nonempty : gap ≠ []) (all : ∀ c ∈ gap, isSpace c) : IsSeparator gap

/-- One item or more with separators between them, and the values of the items in their order. -/
inductive IsRow (item : List Char → Binary64 → Prop) : List Char → List Binary64 → Prop
  | one {text : List Char} {value : Binary64} (here : item text value) : IsRow item text [value]
  | more {text gap row : List Char} {value : Binary64} {values : List Binary64}
      (here : item text value) (between : IsSeparator gap) (others : IsRow item row values) :
      IsRow item (text ++ (gap ++ row)) (value :: values)

/-- A row with space around it. -/
inductive IsListing (item : List Char → Binary64 → Prop) : List Char → List Binary64 → Prop
  | within {before row after : List Char} {values : List Binary64}
      (front : ∀ c ∈ before, isSpace c) (listed : IsRow item row values)
      (back : ∀ c ∈ after, isSpace c) : IsListing item (before ++ (row ++ after)) values

section Items

variable {item other : List Char → Binary64 → Prop} {text : List Char} {values : List Binary64}

theorem IsRow.mono (row : IsRow item text values)
    (kept : ∀ front value, front ⊆ text → item front value → other front value) :
    IsRow other text values := by
  induction row with
  | one here => exact .one (kept _ _ (List.Subset.refl _) here)
  | more here between others ih =>
    refine .more (kept _ _ (List.subset_append_left ..) here) between (ih ?_)
    intro front value within
    exact kept front value fun c member =>
      List.mem_append_right _ (List.mem_append_right _ (within member))

/-- Items may be taken for others where those that stand in the text are such. -/
theorem IsListing.mono (listing : IsListing item text values)
    (kept : ∀ front value, front ⊆ text → item front value → other front value) :
    IsListing other text values := by
  obtain ⟨front, listed, back⟩ := listing
  refine .within front (listed.mono fun part value within => kept part value ?_) back
  exact fun c member => List.mem_append_right _ (List.mem_append_left _ (within member))

end Items

/-! ## Gaps -/

/-- The characters that separators are made of. -/
def isGap (c : Char) : Bool := isSpace c || c == ','

/-- A text that a number in front of it does not go on with. -/
def Ends (text : List Char) : Prop := ∀ c ∈ text.head?, isGap c

theorem isGap_of_isSpace {c : Char} (space : isSpace c) : isGap c := by simp [isGap, space]

theorem stops_isSpace_of_isGap {text : List Char} (stop : Stops isGap text) : Stops isSpace text :=
  fun c next => (Bool.or_eq_false_iff.mp (stop c next)).1

/-- What holds of the five characters that gaps are made of. -/
theorem forall_isGap {p : Char → Prop} (each : ∀ c ∈ [' ', '\t', '\r', '\n', ','], p c) {c : Char}
    (gap : isGap c) : p c := by
  apply each
  simpa [isGap, isSpace, or_assoc] using gap

theorem Ends.stops {p : Char → Bool} {text : List Char} (ends : Ends text)
    (each : ∀ c ∈ [' ', '\t', '\r', '\n', ','], p c = false) : Stops p text :=
  fun c next => forall_isGap each (ends c next)

theorem ends_of_isSpace {text : List Char} (all : ∀ c ∈ text, isSpace c) : Ends text :=
  fun c next => isGap_of_isSpace (all c (List.mem_of_mem_head? next))

namespace IsSeparator

variable {gap rest : List Char}

theorem isGap_of_mem (separator : IsSeparator gap) : ∀ c ∈ gap, isGap c := by
  cases separator with
  | comma front back =>
    intro c member
    rcases List.mem_append.mp member with member | member
    · exact isGap_of_isSpace (front c member)
    · rcases List.mem_cons.mp member with rfl | member
      · rfl
      · exact isGap_of_isSpace (back c member)
  | space nonempty all => exact fun c member => isGap_of_isSpace (all c member)

theorem ne_nil (separator : IsSeparator gap) : gap ≠ [] := by
  cases separator with
  | comma => simp
  | space nonempty => exact nonempty

theorem ends (separator : IsSeparator gap) (rest : List Char) : Ends (gap ++ rest) := by
  obtain ⟨c, gap, rfl⟩ := List.exists_cons_of_ne_nil separator.ne_nil
  intro d next
  cases next
  exact separator.isGap_of_mem c (List.mem_cons_self ..)

end IsSeparator

/-- A separator is skipped whole where no gap goes on behind it. -/
theorem skipSeparator?_of_isSeparator {gap rest : List Char} (separator : IsSeparator gap)
    (stop : Stops isGap rest) : skipSeparator? (gap ++ rest) = some rest := by
  have behind := stops_isSpace_of_isGap stop
  cases separator with
  | @comma before after front back =>
    have inner : skipSpace (before ++ ',' :: after ++ rest) = ',' :: (after ++ rest) := by
      rw [List.append_assoc]
      exact skipSpace_append front (stops_cons.mpr rfl)
    rw [skipSeparator?, inner]
    simp only [skipSpace_append back behind]
  | space nonempty all =>
    obtain ⟨c, gap, rfl⟩ := List.exists_cons_of_ne_nil nonempty
    have first : ((c :: gap ++ rest).head?.any isSpace) = true := all c (List.mem_cons_self ..)
    rw [skipSeparator?, skipSpace_append all behind, first]
    split
    · exact absurd (stop ',' rfl) (by decide)
    · rfl

theorem exists_isSeparator {text rest : List Char} (found : skipSeparator? text = some rest) :
    ∃ gap, IsSeparator gap ∧ text = gap ++ rest := by
  obtain ⟨before, front, shape⟩ := exists_eq_append_skipSpace text
  unfold skipSeparator? at found
  split at found
  · rename_i inner comma
    cases found
    obtain ⟨after, back, shape'⟩ := exists_eq_append_skipSpace inner
    refine ⟨_, .comma front back, ?_⟩
    rw [List.append_assoc, List.cons_append, ← shape', ← comma, ← shape]
  · split at found
    · rename_i spaced
      cases found
      refine ⟨before, .space ?_ front, shape⟩
      -- Were the front empty, the space that the text begins with would not have been skipped.
      rintro rfl
      have stop : Stops isSpace text := by
        rw [shape, List.nil_append]
        exact Text.stops_dropWhile text
      obtain ⟨c, next, space⟩ := (Option.any_eq_true ..).mp spaced
      rw [stop c next] at space
      cases space
    · cases found

/-! ## Numbers -/

/-- A word that the text begins with is dropped letter by letter. -/
theorem dropWord?_append {front word : List Char} (spelled : front.map Char.toLower = word)
    (more rest : List Char) : dropWord? (word ++ more) (front ++ rest) = dropWord? more rest := by
  subst spelled
  induction front with
  | nil => rfl
  | cons c front ih =>
    rw [List.map_cons, List.cons_append, List.cons_append, dropWord?, if_pos (beq_self_eq_true _),
      ih]

/-- What follows a word is what stands behind its letters. -/
theorem dropWord?_eq_some_iff {word text rest : List Char} :
    dropWord? word text = some rest ↔ ∃ front, front.map Char.toLower = word ∧
      text = front ++ rest := by
  constructor
  · intro found
    induction word generalizing text with
    | nil =>
      cases found
      exact ⟨[], rfl, rfl⟩
    | cons w word ih =>
      cases text with
      | nil => cases found
      | cons c text =>
        rw [dropWord?] at found
        split at found
        · rename_i same
          obtain ⟨front, spelled, rfl⟩ := ih found
          exact ⟨c :: front, by rw [List.map_cons, spelled, eq_of_beq same], rfl⟩
        · cases found
  · rintro ⟨front, spelled, rfl⟩
    simpa [dropWord?] using dropWord?_append spelled [] rest

theorem dropWord?_of_stops {w : Char} {word text : List Char}
    (stop : Stops (fun c => c.toLower == w) text) : dropWord? (w :: word) text = none := by
  cases text with
  | nil => rfl
  | cons c text =>
    have other := stops_cons.mp stop
    rw [dropWord?, other]
    rfl

/-- The letters that names begin with. -/
def nameLetters : List Char := "nNiI".toList

theorem mem_nameLetters_of_toLower {c : Char} (lower : c.toLower ∈ ['n', 'i']) :
    c ∈ nameLetters := by
  have small : ∀ d ∈ ['n', 'i'], d ∈ nameLetters := by decide
  have capital : ∀ d ∈ Text.capitals, d.toLower ∈ ['n', 'i'] → d ∈ nameLetters := by decide
  rcases Text.toLower_cases c with same | member
  · rw [same] at lower
    exact small c lower
  · exact capital c member lower

namespace IsName

variable {text rest : List Char} {value : Binary64}

theorem exists_eq_cons (name : IsName text value) :
    ∃ c letters, text = c :: letters ∧ c ∈ nameLetters := by
  cases name with
  | nan spelled | infinity spelled | inf spelled =>
    obtain ⟨c, letters, rfl, first, -⟩ := List.map_eq_cons_iff.mp spelled
    exact ⟨c, letters, rfl, mem_nameLetters_of_toLower (by rw [first]; decide)⟩

/-- A name is read where a gap follows; without one, the shorter of the two names of infinity could
be the front of the longer one. -/
theorem scanNamed?_append (name : IsName text value) (ends : Ends rest) :
    scanNamed? (text ++ rest) = some (value, rest) := by
  have dropped {word : List Char} (spelled : text.map Char.toLower = word) :
      dropWord? word (text ++ rest) = some rest := dropWord?_eq_some_iff.mpr ⟨text, spelled, rfl⟩
  have otherwise {word : List Char} (spelled : text.map Char.toLower = 'i' :: word) :
      dropWord? "nan".toList (text ++ rest) = none := by
    obtain ⟨c, letters, rfl, first, -⟩ := List.map_eq_cons_iff.mp spelled
    exact dropWord?_of_stops (stops_cons.mpr (by rw [first]; rfl))
  cases name with
  | nan spelled => rw [scanNamed?, dropped spelled]
  | infinity spelled => rw [scanNamed?, dropped spelled, otherwise spelled]
  | inf spelled =>
    have longer : dropWord? "infinity".toList (text ++ rest) = none := by
      have parts : "infinity".toList = "inf".toList ++ "inity".toList := rfl
      rw [parts, dropWord?_append spelled]
      exact dropWord?_of_stops (ends.stops (by decide))
    rw [scanNamed?, dropped spelled, otherwise spelled, longer]

/-- No numeral begins like a name. -/
theorem scanNumber_append (name : IsName text value) (rest : List Char) :
    scanNumber (text ++ rest) = .absent := by
  obtain ⟨c, letters, rfl, first⟩ := name.exists_eq_cons
  have other : ∀ d ∈ nameLetters, opensNumeral d = false := by decide
  exact scanNumber_of_stops (stops_cons.mpr (other c first))

end IsName

theorem exists_isName {text rest : List Char} {value : Binary64}
    (found : scanNamed? text = some (value, rest)) :
    ∃ front, IsName front value ∧ text = front ++ rest := by
  unfold scanNamed? at found
  split at found
  · rename_i dropped
    cases found
    obtain ⟨front, spelled, shape⟩ := dropWord?_eq_some_iff.mp dropped
    exact ⟨front, .nan spelled, shape⟩
  · rename_i dropped
    cases found
    obtain ⟨front, spelled, shape⟩ := dropWord?_eq_some_iff.mp dropped
    exact ⟨front, .infinity spelled, shape⟩
  · rename_i dropped
    cases found
    obtain ⟨front, spelled, shape⟩ := dropWord?_eq_some_iff.mp dropped
    exact ⟨front, .inf spelled, shape⟩
  · cases found

namespace IsNumber

variable {text rest : List Char} {value : Binary64}

/-- A number is read off the front of a text where a gap follows or nothing. -/
theorem scanBinary64?_append (number : IsNumber text value) (ends : Ends rest) :
    scanBinary64? (text ++ rest) = some (value, rest) := by
  rcases number with ⟨negative, fraction, numeral, rfl⟩ | name
  · have found := scanNumber_of_isNumeral numeral (ends.stops (by decide))
    rw [scanBinary64?, found]
  · rw [scanBinary64?, name.scanNumber_append, name.scanNamed?_append ends]

/-- No number begins with a gap. -/
theorem exists_eq_cons (number : IsNumber text value) :
    ∃ c others, text = c :: others ∧ isGap c = false := by
  rcases number with ⟨negative, fraction, numeral, -⟩ | name
  · obtain ⟨c, others, rfl, first⟩ := numeral.exists_eq_cons
    refine ⟨c, others, rfl, Bool.eq_false_iff.mpr fun gap => ?_⟩
    have other := forall_isGap (p := fun d => opensNumeral d = false) (by decide) gap
    rw [first] at other
    cases other
  · obtain ⟨c, letters, rfl, first⟩ := name.exists_eq_cons
    exact ⟨c, letters, rfl, (show ∀ d ∈ nameLetters, isGap d = false by decide) c first⟩

end IsNumber

theorem exists_isNumber {text rest : List Char} {value : Binary64}
    (found : scanBinary64? text = some (value, rest)) :
    ∃ front, IsNumber front value ∧ text = front ++ rest := by
  unfold scanBinary64? at found
  split at found
  · rename_i negative fraction after scanned
    cases found
    obtain ⟨front, numeral, shape⟩ := exists_isNumeral scanned
    exact ⟨front, .inl ⟨_, _, numeral, rfl⟩, shape⟩
  · cases found
  · obtain ⟨front, name, shape⟩ := exists_isName found
    exact ⟨front, .inr name, shape⟩

/-! ## Rows -/

section Reading

variable {text rest : List Char} {value : Binary64} {values : List Binary64}

theorem numbersFrom?_of_last (scanned : scanBinary64? text = some (value, rest))
    (last : skipSpace rest = []) : numbersFrom? text = some [value] := by
  rw [numbersFrom?]
  split
  · rename_i failed
    rw [scanned] at failed
    cases failed
  · rename_i found
    rw [scanned] at found
    cases found
    rw [last]
    rfl

theorem numbersFrom?_of_more {after : List Char}
    (scanned : scanBinary64? text = some (value, rest)) (more : skipSpace rest ≠ [])
    (separated : skipSeparator? rest = some after) :
    numbersFrom? text = (numbersFrom? after).map (value :: ·) := by
  rw [numbersFrom?]
  split
  · rename_i failed
    rw [scanned] at failed
    cases failed
  · rename_i found
    rw [scanned] at found
    cases found
    rw [if_neg (by rwa [List.isEmpty_iff])]
    split
    · rename_i failed
      rw [separated] at failed
      cases failed
    · rename_i next
      rw [separated] at next
      cases next
      rfl

theorem IsRow.exists_eq_cons (row : IsRow IsNumber text values) :
    ∃ c others, text = c :: others ∧ isGap c = false := by
  cases row with
  | one here => exact here.exists_eq_cons
  | more here between others =>
    obtain ⟨c, letters, rfl, first⟩ := here.exists_eq_cons
    exact ⟨c, _, rfl, first⟩

/-- A row is read to its end, whatever space follows. -/
theorem numbersFrom?_of_isRow (row : IsRow IsNumber text values) {back : List Char}
    (space : ∀ c ∈ back, isSpace c) : numbersFrom? (text ++ back) = some values := by
  induction row with
  | one here =>
    exact numbersFrom?_of_last (here.scanBinary64?_append (ends_of_isSpace space))
      (Text.dropWhile_of_forall space)
  | @more text gap row value values here between others ih =>
    have scanned := here.scanBinary64?_append (between.ends (row ++ back))
    -- The next number tells the separator from space at the end, and stops it.
    obtain ⟨c, letters, rfl, first⟩ := others.exists_eq_cons
    have separated : skipSeparator? (gap ++ (c :: letters ++ back)) = some (c :: letters ++ back) :=
      skipSeparator?_of_isSeparator between (stops_cons.mpr first)
    have more : skipSpace (gap ++ (c :: letters ++ back)) ≠ [] := by
      intro nothing
      have visible := (Bool.or_eq_false_iff.mp first).1
      rw [isSpace_of_skipSpace_eq_nil nothing c (by simp)] at visible
      cases visible
    rw [List.append_assoc, List.append_assoc, numbersFrom?_of_more scanned more separated, ih]
    rfl

/-- Whatever is read to its end is a row, and space behind it. -/
theorem exists_isRow (found : numbersFrom? text = some values) :
    ∃ row back, IsRow IsNumber row values ∧ (∀ c ∈ back, isSpace c) ∧ text = row ++ back := by
  fun_induction numbersFrom? text generalizing values with
  | case1 text failed => cases found
  | case2 text value rest scanned last =>
    cases found
    obtain ⟨front, number, shape⟩ := exists_isNumber scanned
    refine ⟨front, rest, .one number, ?_, shape⟩
    exact isSpace_of_skipSpace_eq_nil (List.isEmpty_iff.mp last)
  | case3 text value rest scanned more failed => cases found
  | case4 text value rest scanned more after separated _ _ ih =>
    obtain ⟨others, read, rfl⟩ := Option.map_eq_some_iff.mp found
    obtain ⟨row, back, listed, space, rfl⟩ := ih read
    obtain ⟨front, number, shape⟩ := exists_isNumber scanned
    obtain ⟨gap, between, rfl⟩ := exists_isSeparator separated
    refine ⟨_, back, .more number between listed, space, ?_⟩
    rw [List.append_assoc, List.append_assoc, shape]

end Reading

/-- A text is read as a list exactly where it is a listing of numbers. -/
theorem splitNumbers?_eq_some_iff {text : String} {values : List Binary64} :
    splitNumbers? text = some values ↔ IsListing IsNumber text.toList values := by
  rw [splitNumbers?]
  constructor
  · intro found
    obtain ⟨row, back, listed, space, shape⟩ := exists_isRow found
    obtain ⟨front, space', shape'⟩ := exists_eq_append_skipSpace text.toList
    rw [shape', shape]
    exact .within space' listed space
  · generalize text.toList = chars
    rintro ⟨front, listed, back⟩
    rename_i before row after
    have stop : Stops isSpace (row ++ after) := by
      obtain ⟨c, others, rfl, first⟩ := listed.exists_eq_cons
      exact stops_cons.mpr (Bool.or_eq_false_iff.mp first).1
    rw [skipSpace_append front stop]
    exact numbersFrom?_of_isRow listed back

end CartoStyle.Stylesheet
