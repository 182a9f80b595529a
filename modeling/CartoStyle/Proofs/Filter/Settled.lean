import CartoStyle.Proofs.Filter.RoundTrip
import CartoStyle.Proofs.Xml.Settled

/-!
# Filters inside documents

An expression that stands in a document is read with other line ends, and so are the names and the
strings in it: what is read is the expression of the filter with those changed
(`Expression.chars_mapTexts`). The desugared form of a filter has the same expression as the filter
(`Expression.chars_desugared`), so a filter that has been read back is written as it was before.
-/

namespace CartoStyle

open Expression

/-! ## Other names and strings -/

/-- A value with its string changed. -/
def FilterValue.mapText (change : String → String) : FilterValue → FilterValue
  | .null => .null
  | .number value => .number value
  | .text content => .text (change content)

namespace Filter

mutual

/-- A filter with its names and strings changed. -/
def mapTexts (change : String → String) : Filter → Filter
  | .comparison operator property value =>
    .comparison operator (change property) (value.mapText change)
  | .combination operator operands => .combination operator (mapOperandTexts change operands)
  | .negation operand => .negation (mapTexts change operand)

def mapOperandTexts (change : String → String) : List Filter → List Filter
  | [] => []
  | operand :: others => mapTexts change operand :: mapOperandTexts change others

end

section Texts

variable {change : String → String} {p q : ComparisonOperator → String → FilterValue → Bool}

theorem mapOperandTexts_eq_map (change : String → String) (operands : List Filter) :
    mapOperandTexts change operands = operands.map (mapTexts change) := by
  induction operands with
  | nil => rfl
  | cons operand others ih => rw [mapOperandTexts, ih, List.map_cons]

/-- A filter stays as it is if no name and no string of it changes. -/
theorem mapTexts_of_every {filter : Filter} (meets : filter.every p)
    (unchanged : ∀ operator property value, p operator property value →
      change property = property ∧ value.mapText change = value) :
    filter.mapTexts change = filter := by
  induction filter using inductionOn with
  | comparison operator property value =>
    obtain ⟨name, content⟩ := unchanged operator property value meets
    rw [mapTexts, name, content]
  | combination operator operands ih =>
    have each := everyOperand_iff.mp meets
    rw [mapTexts, mapOperandTexts_eq_map]
    have same : operands.map (mapTexts change) = operands.map id :=
      List.map_congr_left fun operand member => ih operand member (each operand member)
    rw [same, List.map_id]
  | negation operand ih => rw [mapTexts, ih meets]

theorem mapTexts_self (filter : Filter) : filter.mapTexts (fun text => text) = filter := by
  have all : filter.every fun _ _ _ => true := by
    induction filter using inductionOn with
    | comparison operator property value => rfl
    | combination operator operands ih => exact everyOperand_iff.mpr ih
    | negation operand ih => exact ih
  exact mapTexts_of_every all fun _ _ value _ => ⟨rfl, by cases value <;> rfl⟩

/-- What has been settled stays settled. -/
theorem mapTexts_mapTexts (settled : ∀ text, change (change text) = change text) (filter : Filter) :
    (filter.mapTexts change).mapTexts change = filter.mapTexts change := by
  induction filter using inductionOn with
  | comparison operator property value =>
    cases value <;> simp [mapTexts, FilterValue.mapText, settled]
  | combination operator operands ih =>
    simp only [mapTexts, mapOperandTexts_eq_map, List.map_map]
    exact congrArg _ (List.map_congr_left ih)
  | negation operand ih => rw [mapTexts, mapTexts, ih]

theorem every_of_every (meets : ∀ operator property value,
    p operator property value → q operator property value) {filter : Filter}
    (all : filter.every p) : filter.every q := by
  induction filter using inductionOn with
  | comparison operator property value => exact meets operator property value all
  | combination operator operands ih =>
    have each := everyOperand_iff.mp all
    exact everyOperand_iff.mpr fun operand member => ih operand member (each operand member)
  | negation operand ih => exact ih all

theorem every_mapTexts (filter : Filter) :
    (filter.mapTexts change).every p =
      filter.every fun operator property value =>
        p operator (change property) (value.mapText change) := by
  induction filter using inductionOn with
  | comparison operator property value => rfl
  | combination operator operands ih =>
    rw [mapTexts, every, every, Bool.eq_iff_iff, everyOperand_iff, everyOperand_iff,
      mapOperandTexts_eq_map, List.forall_mem_map]
    exact forall₂_congr fun operand member => by rw [ih operand member]
  | negation operand ih => exact ih

/-- Names and values can be told apart as before if no bracket comes in. -/
theorem isDelimited_mapTexts
    (inside : ∀ text, ∀ c ∈ (change text).toList, c = '\n' ∨ c ∈ text.toList)
    {filter : Filter} (delimited : filter.every isDelimited) :
    (filter.mapTexts change).every isDelimited := by
  rw [every_mapTexts]
  apply every_of_every _ delimited
  intro operator property value meets
  simp only [isDelimited, Bool.and_eq_true, Bool.not_eq_true', List.contains_eq_mem,
    decide_eq_false_iff_not] at meets ⊢
  refine ⟨?_, ?_⟩
  · intro bracket
    rcases inside property _ bracket with feed | before
    · exact absurd feed (by decide)
    · exact meets.1 before
  · cases value <;> exact meets.2

end Texts

/-! ## Desugared filters -/

theorem desugared_mapTexts (change : String → String) (filter : Filter) :
    (filter.mapTexts change).desugared = filter.desugared.mapTexts change := by
  induction filter using inductionOn with
  | comparison operator property value => cases operator <;> rfl
  | combination operator operands ih =>
    simp only [mapTexts, desugared, mapOperandTexts_eq_map, desugaredOperands_eq_map, List.map_map]
    exact congrArg _ (List.map_congr_left ih)
  | negation operand ih => rw [mapTexts, desugared, ih, desugared, mapTexts]

@[simp] theorem desugared_desugared (filter : Filter) :
    filter.desugared.desugared = filter.desugared := by
  induction filter using inductionOn with
  | comparison operator property value => cases operator <;> rfl
  | combination operator operands ih =>
    simp only [desugared, desugaredOperands_eq_map, List.map_map]
    exact congrArg _ (List.map_congr_left ih)
  | negation operand ih => rw [desugared, desugared, ih]

theorem every_desugared {p : ComparisonOperator → String → FilterValue → Bool}
    (equality : ∀ property value, p .equal property value = p .notEqual property value)
    (filter : Filter) : filter.desugared.every p = filter.every p := by
  induction filter using inductionOn with
  | comparison operator property value => cases operator <;> first | rfl | exact equality ..
  | combination operator operands ih =>
    rw [desugared, every, every, Bool.eq_iff_iff, everyOperand_iff, everyOperand_iff,
      desugaredOperands_eq_map, List.forall_mem_map]
    exact forall₂_congr fun operand member => by rw [ih operand member]
  | negation operand ih => exact ih

theorem isPaired_desugared (filter : Filter) : filter.desugared.isPaired = filter.isPaired := by
  induction filter using inductionOn with
  | comparison operator property value => cases operator <;> rfl
  | combination operator operands ih =>
    have each : arePaired (desugaredOperands operands) = arePaired operands := by
      rw [Bool.eq_iff_iff, arePaired_iff, arePaired_iff, desugaredOperands_eq_map,
        List.forall_mem_map]
      exact forall₂_congr fun operand member => by rw [ih operand member]
    rw [desugared, isPaired, isPaired, each, desugaredOperands_eq_map, List.length_map]
  | negation operand ih => exact ih

theorem operandNesting_congr {change : Filter → Filter} {operands : List Filter}
    (same : ∀ operand ∈ operands, (change operand).nesting = operand.nesting) :
    operandNesting (operands.map change) = operandNesting operands := by
  induction operands with
  | nil => rfl
  | cons operand others ih =>
    rw [List.map_cons, operandNesting, operandNesting, same _ (List.mem_cons_self ..),
      ih fun other member => same other (List.mem_cons_of_mem _ member)]

theorem nesting_desugared (filter : Filter) : filter.desugared.nesting = filter.nesting := by
  induction filter using inductionOn with
  | comparison operator property value => cases operator <;> rfl
  | combination operator operands ih =>
    rw [desugared, nesting, nesting, desugaredOperands_eq_map, operandNesting_congr ih]
  | negation operand ih => rw [desugared, nesting, nesting, ih]

theorem isExpressible_desugared (filter : Filter) :
    filter.desugared.isExpressible = filter.isExpressible := by
  rw [isExpressible, isExpressible, isPaired_desugared, every_desugared fun _ _ => rfl,
    every_desugared fun _ _ => rfl, every_desugared fun _ _ => rfl]

end Filter

namespace Expression

theorem operandChars_congr {change : Filter → Filter} {operator : CombinationOperator}
    {operands : List Filter} (same : ∀ operand ∈ operands, chars (change operand) = chars operand) :
    operandChars operator (operands.map change) = operandChars operator operands := by
  induction operands with
  | nil => rfl
  | cons operand others ih =>
    rw [List.map_cons, operandChars, operandChars, same _ (List.mem_cons_self ..),
      ih fun other member => same other (List.mem_cons_of_mem _ member)]

/-- The desugared form of a filter has the same expression. -/
@[simp] theorem chars_desugared (filter : Filter) : chars filter.desugared = chars filter := by
  induction filter using Filter.inductionOn with
  | comparison operator property value => cases operator <;> rfl
  | combination operator operands ih =>
    rw [Filter.desugared, chars, chars, Filter.desugaredOperands_eq_map, List.length_map,
      operandChars_congr ih]
  | negation operand ih => rw [Filter.desugared, chars, chars, ih]

/-! ## Line ends -/

/-- One text is read as another, whatever stands behind it. -/
def Settles (text settled : List Char) : Prop :=
  ∀ rest, Xml.interior (text ++ rest) = settled ++ Xml.interior rest

namespace Settles

variable {text settled text' settled' : List Char}

theorem interior_eq (settles : Settles text settled) : Xml.interior text = settled := by
  have whole := settles []
  rwa [List.append_nil, Xml.interior, List.append_nil] at whole

theorem append (first : Settles text settled) (second : Settles text' settled') :
    Settles (text ++ text') (settled ++ settled') := by
  intro rest
  rw [List.append_assoc, first, second, List.append_assoc]

theorem of_not_mem (absent : '\r' ∉ text) : Settles text text :=
  fun rest => Xml.interior_append_of_not_mem absent rest

end Settles

theorem settles_property (name : List Char) :
    Settles ('[' :: name ++ "] ".toList) ('[' :: Xml.interior name ++ "] ".toList) := by
  intro rest
  have open_ : Xml.interior ('[' :: (name ++ ("] ".toList ++ rest))) =
      '[' :: Xml.interior (name ++ ("] ".toList ++ rest)) := Xml.interior_cons_of_ne (by decide) _
  have close : Xml.interior (name ++ (']' :: ' ' :: rest)) =
      Xml.interior name ++ Xml.interior (']' :: ' ' :: rest) :=
    Xml.interior_append name (by decide) (by decide) _
  have behind : Xml.interior (']' :: ' ' :: rest) = "] ".toList ++ Xml.interior rest :=
    @Xml.interior_append_of_not_mem "] ".toList (by decide) rest
  simp only [List.cons_append, List.append_assoc]
  rw [open_]
  exact congrArg _ (close.trans (congrArg _ behind))

/-- A character of a string in quotes. -/
def quotedChar (c : Char) : List Char := if c == '\'' || c == '\\' then ['\\', c] else [c]

theorem quotedChar_cases (c : Char) :
    (c = '\'' ∨ c = '\\') ∧ quotedChar c = ['\\', c] ∨ quotedChar c = [c] := by
  by_cases special : c = '\'' ∨ c = '\\'
  · exact .inl ⟨special, if_pos (by simpa using special)⟩
  · exact .inr (if_neg (by simpa using special))

theorem quoted_eq (content : List Char) :
    quoted content = '\'' :: (content.flatMap quotedChar ++ ['\'']) := rfl

/-- A line end before a string in quotes is read as before the string itself. -/
theorem interior_return_quoted (d : Char) (content rest : List Char) :
    Xml.interior ('\r' :: ((d :: content).flatMap quotedChar ++ rest)) =
      if d = '\n' then Xml.interior ((d :: content).flatMap quotedChar ++ rest)
      else (if Xml.isMarkup d then '\r' else '\n') ::
        Xml.interior ((d :: content).flatMap quotedChar ++ rest) := by
  rw [List.flatMap_cons]
  rcases quotedChar_cases d with ⟨special, escaped⟩ | plain
  · rw [escaped]
    rcases special with rfl | rfl <;> rfl
  · rw [plain]
    exact Xml.interior_return_cons d _

/-- An escaped string settles as the string does. -/
theorem interior_flatMap_quotedChar (content rest : List Char) :
    Xml.interior (content.flatMap quotedChar ++ '\'' :: rest) =
      (Xml.interior content).flatMap quotedChar ++ Xml.interior ('\'' :: rest) := by
  induction content with
  | nil => rfl
  | cons c content ih =>
    by_cases return_ : c = '\r'
    · subst return_
      cases content with
      | nil => rfl
      | cons d content =>
        have spelled : ('\r' :: d :: content).flatMap quotedChar =
            '\r' :: (d :: content).flatMap quotedChar := rfl
        rw [spelled, List.cons_append, interior_return_quoted, Xml.interior_return_cons, ih]
        split
        · rfl
        · split <;> rfl
    · rw [Xml.interior_cons_of_ne return_, List.flatMap_cons, List.flatMap_cons, List.append_assoc,
        List.append_assoc, ← ih]
      rcases quotedChar_cases c with ⟨_, escaped⟩ | plain
      · rw [escaped, List.cons_append, List.cons_append, Xml.interior_cons_of_ne (by decide),
          Xml.interior_cons_of_ne return_]
        rfl
      · rw [plain]
        exact Xml.interior_cons_of_ne return_ _

theorem settles_quoted (content : List Char) :
    Settles (quoted content) (quoted (Xml.interior content)) := by
  intro rest
  have tail : Xml.interior ('\'' :: rest) = '\'' :: Xml.interior rest :=
    Xml.interior_cons_of_ne (by decide) rest
  simp only [quoted_eq, List.cons_append, List.append_assoc, List.nil_append]
  rw [Xml.interior_cons_of_ne (by decide), interior_flatMap_quotedChar, tail]

section Line

variable {change : String → String}
  (settled : ∀ text : String, (change text).toList = Xml.interior text.toList)

include settled

theorem settles_valueText (value : FilterValue) :
    Settles (valueText value) (valueText (value.mapText change)) := by
  cases value with
  | null => exact .of_not_mem (by decide)
  | number value =>
    apply Settles.of_not_mem
    intro member
    cases Binary64.isVisible_of_mem_chars member
  | text content =>
    rw [FilterValue.mapText, valueText, valueText, settled]
    exact settles_quoted content.toList

theorem settles_comparisonText (operator : ComparisonOperator) (property : String)
    (value : FilterValue) :
    Settles (comparisonText operator property value)
      (comparisonText operator (change property) (value.mapText change)) := by
  have symbol : '\r' ∉ operator.symbol.toList ++ [' '] := by cases operator <;> decide
  have parts (name content : List Char) : '[' :: name ++ "] ".toList ++ operator.symbol.toList ++
      ' ' :: content = ('[' :: name ++ "] ".toList) ++
        ((operator.symbol.toList ++ [' ']) ++ content) := by simp
  rw [comparisonText, comparisonText, parts, parts, settled]
  exact (settles_property _).append
    ((Settles.of_not_mem symbol).append (settles_valueText settled value))

end Line

theorem Settles.grouped {part part' : List Char} (settles : Settles part part') :
    Settles (grouped part) (Expression.grouped part') :=
  ((Settles.of_not_mem (show '\r' ∉ ['('] by decide)).append settles).append
    (.of_not_mem (by decide))

theorem Settles.negatedText {part part' : List Char} (settles : Settles part part') :
    Settles (negatedText part) (Expression.negatedText part') :=
  (Settles.of_not_mem (by decide)).append settles.grouped

theorem operandChars_cons_of_ok {operator : CombinationOperator} {operand : Filter}
    {others : List Filter} {part rest : List Char} (first : chars operand = .ok part)
    (last : operandChars operator others = .ok rest) :
    operandChars operator (operand :: others) = .ok (grouped part ++ if rest = [] then [] else
      ' ' :: operator.symbol.toList ++ ' ' :: rest) := by
  rw [operandChars, first, last]
  cases rest with
  | nil => simp
  | cons c rest => simp

theorem settles_operandChars {change : Filter → Filter} {operator : CombinationOperator}
    {operands : List Filter}
    (each : ∀ operand ∈ operands, ∀ part, chars operand = .ok part →
      ∃ part', chars (change operand) = .ok part' ∧ Settles part part')
    {text : List Char} (rendered : operandChars operator operands = .ok text) :
    ∃ text', operandChars operator (operands.map change) = .ok text' ∧ Settles text text' := by
  induction operands generalizing text with
  | nil =>
    cases rendered
    exact ⟨[], rfl, .of_not_mem (by simp)⟩
  | cons operand others ih =>
    obtain ⟨part, rest, first, last, rfl⟩ := operandChars_cons rendered
    obtain ⟨part', first', settles⟩ := each operand (List.mem_cons_self ..) part first
    obtain ⟨rest', last', more⟩ :=
      ih (fun other member => each other (List.mem_cons_of_mem _ member)) last
    refine ⟨_, operandChars_cons_of_ok first' last', settles.grouped.append ?_⟩
    have symbol : '\r' ∉ ' ' :: operator.symbol.toList ++ [' '] := by cases operator <;> decide
    by_cases end_ : others = []
    · subst end_
      cases last
      cases last'
      exact .of_not_mem (by simp)
    · have nonempty : rest ≠ [] := by
        rintro rfl
        exact end_ (operandChars_eq_ok_nil last)
      have nonempty' : rest' ≠ [] := by
        rintro rfl
        exact end_ (List.map_eq_nil_iff.mp (operandChars_eq_ok_nil last'))
      rw [if_neg nonempty, if_neg nonempty']
      have both := (Settles.of_not_mem symbol).append more
      simpa using both

/-- The expression of a filter settles into that of the filter with its names and strings settled.
-/
theorem chars_mapTexts {change : String → String}
    (settled : ∀ text : String, (change text).toList = Xml.interior text.toList) {filter : Filter}
    {text : List Char} (rendered : chars filter = .ok text) :
    chars (filter.mapTexts change) = .ok (Xml.interior text) := by
  have settles : ∃ text', chars (filter.mapTexts change) = .ok text' ∧ Settles text text' := by
    induction filter using Filter.inductionOn generalizing text with
    | comparison operator property value =>
      cases rendered
      refine ⟨_, rfl, ?_⟩
      by_cases unequal : operator = .notEqual
      · subst unequal
        exact Settles.negatedText (settles_comparisonText settled .equal property value)
      · rw [if_neg unequal, if_neg unequal]
        exact settles_comparisonText settled operator property value
    | combination operator operands ih =>
      rw [chars] at rendered
      rw [Filter.mapTexts, Filter.mapOperandTexts_eq_map, chars, List.length_map]
      split at rendered
      · cases rendered
      · rename_i several
        rw [if_neg several]
        exact settles_operandChars (fun operand member part inner => ih operand member inner)
          rendered
    | negation operand ih =>
      rw [chars] at rendered
      split at rendered
      · rename_i part inner
        cases rendered
        obtain ⟨part', inner', settles⟩ := ih inner
        exact ⟨_, by rw [Filter.mapTexts, chars, inner'], settles.negatedText⟩
      · cases rendered
  obtain ⟨text', rendered', settles⟩ := settles
  rw [settles.interior_eq, rendered']

/-! ## The ends of an expression -/

/-- A text of several characters with no blank at either end. -/
def IsFramed (text : List Char) : Prop :=
  ∃ first middle last, text = first :: (middle ++ [last]) ∧
    Text.isBlank first = false ∧ Text.isBlank last = false

theorem IsFramed.trim_eq {text : List Char} (framed : IsFramed text) : Text.trim text = text := by
  obtain ⟨first, middle, last, rfl, front, back⟩ := framed
  apply Text.trim_of_stops (Text.stops_cons.mpr front)
  simpa using back

theorem IsFramed.ne_nil {text : List Char} (framed : IsFramed text) : text ≠ [] := by
  obtain ⟨first, middle, last, rfl, -, -⟩ := framed
  exact List.cons_ne_nil _ _

theorem IsFramed.cons {text : List Char} (framed : IsFramed text) {c : Char}
    (front : Text.isBlank c = false) (before : List Char) : IsFramed (c :: (before ++ text)) := by
  obtain ⟨first, middle, last, rfl, -, back⟩ := framed
  exact ⟨c, before ++ first :: middle, last, by simp, front, back⟩

theorem isFramed_grouped (part : List Char) : IsFramed (grouped part) :=
  ⟨'(', part, ')', rfl, by decide, by decide⟩

theorem isFramed_negatedText (part : List Char) : IsFramed (negatedText part) :=
  (isFramed_grouped part).cons (c := 'n') (by decide) "ot ".toList

theorem isFramed_comparisonText (operator : ComparisonOperator) (property : String)
    (value : FilterValue) : IsFramed (comparisonText operator property value) := by
  have ending : ∃ start last, valueText value = start ++ [last] ∧ Text.isBlank last = false := by
    cases value with
    | null => exact ⟨"nul".toList, 'l', rfl, by decide⟩
    | number x =>
      have nonempty := Binary64.chars_ne_nil x
      refine ⟨(x.chars .plain).dropLast, (x.chars .plain).getLast nonempty,
        (List.dropLast_concat_getLast nonempty).symm, ?_⟩
      exact Text.not_isBlank_of_isVisible
        (Binary64.isVisible_of_mem_chars (List.getLast_mem nonempty))
    | text content => exact ⟨'\'' :: content.toList.flatMap quotedChar, '\'', rfl, by decide⟩
  obtain ⟨start, last, shape, back⟩ := ending
  refine ⟨'[', property.toList ++ "] ".toList ++ operator.symbol.toList ++ ' ' :: start, last, ?_,
    by decide, back⟩
  rw [comparisonText, shape]
  simp

/-- No blank stands at an end of an expression. -/
theorem isFramed_of_chars {filter : Filter} {text : List Char}
    (rendered : chars filter = .ok text) :
    IsFramed text := by
  cases filter with
  | comparison operator property value =>
    cases rendered
    split
    · exact isFramed_negatedText _
    · exact isFramed_comparisonText operator property value
  | combination operator operands =>
    rw [chars] at rendered
    split at rendered
    · cases rendered
    · rename_i several
      have nonempty : operands ≠ [] := by
        rintro rfl
        exact several (by decide)
      clear several
      induction operands generalizing text with
      | nil => exact absurd rfl nonempty
      | cons operand others ih =>
        obtain ⟨part, rest, first, last, rfl⟩ := operandChars_cons rendered
        by_cases end_ : rest = []
        · rw [if_pos end_, List.append_nil]
          exact isFramed_grouped part
        · rw [if_neg end_]
          have more : IsFramed rest := ih last (by
            rintro rfl
            cases last
            exact end_ rfl)
          have whole := more.cons (c := '(') (by decide)
            (part ++ ')' :: ' ' :: operator.symbol.toList ++ [' '])
          simpa [grouped] using whole
  | negation operand =>
    rw [chars] at rendered
    split at rendered
    · cases rendered
      exact isFramed_negatedText _
    · cases rendered

end Expression

end CartoStyle
