import CartoStyle.Filter.Expression.Render
import CartoStyle.Filter.Expression.Scan
import CartoStyle.Proofs.Decimal.Literal
import CartoStyle.Proofs.Filter.Expressible

/-! # The tokens of a rendered filter

The text of a filter is cut into the tokens of that filter, whatever stands behind it that is no
more of a word. This needs numbers that have digits and property names without a closing bracket;
where a name is empty the text is not a row of tokens at all (`tokens?_chars`).

Positions play no part here, so the statements are about `tokens?`, the scan without them.
-/

namespace CartoStyle.Expression

open Text

/-- The tokens of a text without their positions. -/
def tokens? (size : Nat) (text : List Char) : Option (List Token) :=
  (scanFrom size text).toOption.map (·.map Placed.token)

/-- Some tokens in front of those that are found, if they are tokens at all. -/
def leading (known : Bool) (tokens : List Token) (found : Option (List Token)) :
    Option (List Token) :=
  if known then found.map (tokens ++ ·) else none

section Leading

variable {known known' : Bool} {tokens tokens' : List Token} {found : Option (List Token)}

@[simp] theorem map_leading (token : Token) :
    (leading known tokens found).map (token :: ·) = leading known (token :: tokens) found := by
  cases known with
  | false => rfl
  | true =>
    simp only [leading, if_true, Option.map_map]
    rfl

@[simp] theorem leading_leading :
    leading known tokens (leading known' tokens' found) =
      leading (known && known') (tokens ++ tokens') found := by
  cases known with
  | false => rfl
  | true =>
    cases known' with
    | false => rfl
    | true => cases found <;> simp [leading]

@[simp] theorem leading_map (token : Token) :
    leading known tokens (found.map (token :: ·)) = leading known (tokens ++ [token]) found := by
  cases known with
  | false => rfl
  | true => cases found <;> simp [leading]

end Leading

/-! ## One token -/

section Scanning

variable {size : Nat} {text rest : List Char} {token : Token}

theorem tokens?_nil : tokens? size [] = some [] := by
  rw [tokens?, scanFrom]
  rfl

/-- The tokens of a text are its first one and those behind it. -/
theorem scanFrom_of_token (found : scanToken (skipSpace text) = .token token rest) :
    scanFrom size text = (scanFrom size rest).map
      (⟨token, size - byteLength (skipSpace text)⟩ :: ·) := by
  rw [scanFrom]
  split
  · rename_i absent
    rw [absent] at found
    cases found
  · rename_i unreadable
    rw [unreadable] at found
    cases found
  · rename_i token' rest' read
    rw [read] at found
    cases found
    cases scanFrom size rest with
    | error problem => rfl
    | ok others => rfl

/-- Space at the front makes no difference to the tokens of a text. -/
theorem scanFrom_congr {text' : List Char} (same : skipSpace text = skipSpace text') :
    scanFrom size text = scanFrom size text' := by
  rw [scanFrom, scanFrom, same]

theorem tokens?_of_token (found : scanToken (skipSpace text) = .token token rest) :
    tokens? size text = (tokens? size rest).map (token :: ·) := by
  rw [tokens?, scanFrom_of_token found, tokens?]
  cases scanFrom size rest with
  | error problem => rfl
  | ok others => rfl

theorem tokens?_of_absent (absent : scanToken (skipSpace text) = .absent)
    (more : skipSpace text ≠ []) : tokens? size text = none := by
  rw [tokens?, scanFrom]
  split
  · split
    · rename_i nothing
      cases shape : skipSpace text with
      | nil => exact absurd shape more
      | cons c others =>
        rw [shape] at nothing
        cases nothing
    · rfl
  · rfl
  · rename_i read
    rw [absent] at read
    cases read

@[simp] theorem tokens?_space : tokens? size (' ' :: text) = tokens? size text := by
  rw [tokens?, tokens?, scanFrom_congr (show skipSpace (' ' :: text) = skipSpace text from rfl)]

@[simp] theorem tokens?_opening :
    tokens? size ('(' :: rest) = (tokens? size rest).map (.opening :: ·) :=
  tokens?_of_token rfl

@[simp] theorem tokens?_closing :
    tokens? size (')' :: rest) = (tokens? size rest).map (.closing :: ·) :=
  tokens?_of_token rfl

theorem tokens?_comparison (operator : ComparisonOperator) :
    tokens? size (operator.symbol.toList ++ ' ' :: rest) =
      (tokens? size rest).map (.comparison operator :: ·) := by
  rw [← @tokens?_space _ rest]
  cases operator <;> exact tokens?_of_token rfl

theorem tokens?_combination (operator : CombinationOperator) :
    tokens? size (operator.symbol.toList ++ ' ' :: rest) =
      (tokens? size rest).map (.combination operator :: ·) := by
  rw [← @tokens?_space _ rest]
  cases operator <;> exact tokens?_of_token rfl

theorem scanProperty?_name {name : List Char} (open_ : ']' ∉ name) (nonempty : name ≠ []) :
    scanProperty? ('[' :: name ++ ']' :: rest) = some (.property (String.ofList name), rest) := by
  have inside : ∀ c ∈ name, (c != ']') = true := by
    intro c member
    simp only [bne_iff_ne, ne_eq]
    rintro rfl
    exact open_ member
  have stop : Stops (· != ']') (']' :: rest) := by simp
  obtain ⟨c, others, rfl⟩ := List.exists_cons_of_ne_nil nonempty
  simp only [List.cons_append, scanProperty?]
  rw [← List.cons_append, takeWhile_append_of_stops inside stop,
    dropWhile_append_of_stops inside stop]

/-- A property is a token if it has a name, and nothing else is one in its place. -/
theorem tokens?_property {name : String} (open_ : ']' ∉ name.toList) :
    tokens? size ('[' :: name.toList ++ ']' :: rest) =
      leading (name != "") [.property name] (tokens? size rest) := by
  by_cases empty : name = ""
  · subst empty
    exact tokens?_of_absent rfl (by simp [skipSpace, isSpace])
  · have named : (name != "") = true := by simpa using empty
    rw [named]
    apply tokens?_of_token
    have nonempty : name.toList ≠ [] := by simpa using empty
    have skipped : skipSpace ('[' :: name.toList ++ ']' :: rest) =
        '[' :: name.toList ++ ']' :: rest := rfl
    rw [skipped, scanToken, scanProperty?_name open_ nonempty, String.ofList_toList]
    rfl

/-! ## Words and numbers -/

theorem isWordChar_of_isDigit {c : Char} (digit : c.isDigit) : isWordChar c := by
  have bounds := Char.isDigit_iff_toNat.mp digit
  have letter : isAlphanumeric c = true := inRanges_of_between bounds.1 bounds.2
  simp [isWordChar, letter]

theorem isWordChar_of_continuesNumber {c : Char} (more : continuesNumber c) : isWordChar c := by
  simp only [continuesNumber, Bool.or_eq_true, beq_iff_eq] at more
  rcases more with ((digit | rfl) | rfl) | rfl
  · exact isWordChar_of_isDigit digit
  · decide
  · decide
  · decide

theorem stops_continuesNumber (stop : Stops isWordChar rest) : Stops continuesNumber rest := by
  intro c next
  apply Bool.eq_false_iff.mpr
  intro more
  have := stop c next
  rw [isWordChar_of_continuesNumber more] at this
  cases this

/-- The characters that properties, literals and symbols begin with. -/
def openers : List Char := "[\'\"=!*<>&|%()".toList

theorem scanSymbolOf?_eq_none {list : List String} {c : Char}
    (other : ∀ symbol ∈ list, ∃ d ∈ symbol.toList.head?, d ≠ c) :
    scanSymbolOf? list (c :: rest) = none := by
  induction list with
  | nil => rfl
  | cons symbol list ih =>
    obtain ⟨d, first, different⟩ := other symbol (List.mem_cons_self ..)
    have mismatch : symbol.toList.isPrefixOf (c :: rest) = false := by
      cases shape : symbol.toList with
      | nil =>
        rw [shape] at first
        cases first
      | cons e others =>
        rw [shape] at first
        cases first
        simp [List.isPrefixOf, different]
    rw [scanSymbolOf?, mismatch]
    exact ih fun symbol member => other symbol (List.mem_cons_of_mem _ member)

theorem scanToken_of_not_mem_openers {c : Char} (plain : c ∉ openers) :
    scanToken (c :: rest) = scanNumberOrWord (c :: rest) := by
  have other (d : Char) (member : d ∈ openers) : d ≠ c := by
    rintro rfl
    exact plain member
  have property : scanProperty? (c :: rest) = none := by
    unfold scanProperty?
    split
    · rename_i text shape
      cases shape
      exact absurd rfl (other '[' (by decide))
    · rfl
  have literal : scanText? (c :: rest) = none := by
    have single := (other '\'' (by decide)).symm
    have double := (other '"' (by decide)).symm
    simp [scanText?, isQuote, single, double]
  have symbol : scanSymbolOf? symbols (c :: rest) = none := by
    apply scanSymbolOf?_eq_none
    intro symbol member
    have opener : ∀ symbol ∈ symbols, symbol.toList.head?.any openers.contains := by decide
    obtain ⟨d, first, known⟩ := (Option.any_eq_true _ _).mp (opener symbol member)
    exact ⟨d, first, other d (List.contains_iff_mem.mp known)⟩
  rw [scanToken, property, literal, symbol]
  rfl

/-- A word is a token if no number begins in its place. -/
theorem scanToken_word {c : Char} {word : List Char} (plain : c ∉ openers)
    (absent : scanNumber (c :: word ++ rest) = .absent)
    (inside : ∀ d ∈ c :: word, isWordChar d) (stop : Stops isWordChar rest) :
    scanToken (c :: word ++ rest) = .token ((operatorToken? (String.ofList (c :: word))).getD
      (.word (String.ofList (c :: word)))) rest := by
  have nonempty : String.ofList (c :: word) ≠ "" := by simp
  rw [List.cons_append] at absent
  rw [List.cons_append, scanToken_of_not_mem_openers plain, scanNumberOrWord, absent,
    ← List.cons_append]
  simp only [scanWord]
  rw [takeWhile_append_of_stops inside stop, dropWhile_append_of_stops inside stop,
    if_neg nonempty]

theorem scanToken_not (stop : Stops isWordChar rest) :
    scanToken ("not".toList ++ rest) = .token .negation rest :=
  scanToken_word (by decide) rfl (by decide) stop

theorem scanToken_null (stop : Stops isWordChar rest) :
    scanToken ("null".toList ++ rest) = .token (.word "null") rest :=
  scanToken_word (by decide) rfl (by decide) stop

theorem scanToken_number {x : Binary64} (finite : x.isFinite) (stop : Stops isWordChar rest) :
    scanToken (x.chars .plain ++ rest) = .token (.number x) rest := by
  obtain ⟨negative, magnitude, rfl⟩ := Binary64.exists_of_isFinite finite
  obtain ⟨value, scanned, same⟩ :=
    Binary64.scanNumber_chars negative magnitude (stops_continuesNumber stop)
  have next : rest.head?.any isWordChar = false := by
    cases rest with
    | nil => rfl
    | cons c rest => simpa using stop
  have number : scanNumberOrWord ((Binary64.finite negative magnitude).chars .plain ++ rest) =
      .token (.number (.finite negative magnitude)) rest := by
    rw [scanNumberOrWord, scanned]
    simp [next, same]
  rw [← number]
  have nonempty := Binary64.chars_ne_nil (.finite negative magnitude)
  cases shape : (Binary64.finite negative magnitude).chars .plain with
  | nil => exact absurd shape nonempty
  | cons c text =>
    apply scanToken_of_not_mem_openers
    have member : c ∈ (Binary64.finite negative magnitude).chars .plain := by
      rw [shape]
      exact List.mem_cons_self ..
    have letters : ∀ d ∈ openers, d.isDigit = false ∧ d ≠ '.' ∧ d ≠ '-' := by decide
    intro opener
    obtain ⟨letter, point, minus⟩ := letters c opener
    rcases Binary64.mem_chars finite member with digit | rfl | rfl
    · rw [letter] at digit
      cases digit
    · exact point rfl
    · exact minus rfl

theorem scanContent?_cons {quote c : Char} (other : c ≠ quote) (plain : c ≠ '\\') :
    scanContent? quote (c :: rest) =
      (scanContent? quote rest).map fun (content, after) => (c :: content, after) := by
  have unquoted : (c == quote) = false := by simpa using other
  rw [scanContent?, unquoted]
  · rfl
  · intro d others escape
    exact absurd escape plain

theorem scanContent?_quoted (content : List Char) :
    scanContent? '\''
      (content.flatMap (fun c => if c == '\'' || c == '\\' then ['\\', c] else [c]) ++
      '\'' :: rest) = some (content, rest) := by
  induction content with
  | nil => rfl
  | cons c content ih =>
    rw [List.flatMap_cons, List.append_assoc]
    by_cases escaped : (c == '\'' || c == '\\') = true
    · rw [if_pos escaped, List.cons_append, List.singleton_append, scanContent?, ih]
      rfl
    · rw [if_neg escaped, List.singleton_append]
      simp only [Bool.or_eq_true, beq_iff_eq, not_or] at escaped
      rw [scanContent?_cons escaped.1 escaped.2, ih]
      rfl

/-- The text of a value is its token. -/
theorem scanToken_value {value : FilterValue} (finite : value.isFinite)
    (stop : Stops isWordChar rest) :
    scanToken (valueText value ++ rest) = .token (Filter.valueToken value) rest := by
  cases value with
  | null => exact scanToken_null stop
  | number x => exact scanToken_number finite stop
  | text content =>
    have literal : scanText? (valueText (.text content) ++ rest) = some (.text content, rest) := by
      simp only [valueText, quoted, List.cons_append, List.append_assoc]
      rw [scanText?, scanContent?_quoted]
      simp [isQuote]
    have property : scanProperty? (valueText (.text content) ++ rest) = none := rfl
    rw [scanToken, property, literal]
    rfl

theorem stops_isSpace_valueText {value : FilterValue} (finite : value.isFinite) :
    Stops isSpace (valueText value ++ rest) := by
  cases value with
  | null => exact stops_cons.mpr rfl
  | text content => exact stops_cons.mpr rfl
  | number x =>
    rw [valueText, stops_append_of_ne_nil (Binary64.chars_ne_nil _)]
    intro c next
    apply Bool.eq_false_iff.mpr
    intro space
    simp only [isSpace, Bool.or_eq_true, beq_iff_eq] at space
    have member := Binary64.mem_chars finite (List.mem_of_mem_head? next)
    rcases space with ((rfl | rfl) | rfl) | rfl <;> exact absurd member (by decide)

/-- The text of a comparison is its tokens if the property has a name, and no tokens otherwise. -/
theorem tokens?_comparisonText (operator : ComparisonOperator) {property : String}
    {value : FilterValue} (open_ : ']' ∉ property.toList) (finite : value.isFinite)
    (stop : Stops isWordChar rest) :
    tokens? size (comparisonText operator property value ++ rest) =
      leading (property != "") (Filter.comparisonTokens operator property value)
        (tokens? size rest) := by
  have shape : comparisonText operator property value ++ rest =
      '[' :: property.toList ++
        ']' :: ' ' :: (operator.symbol.toList ++ ' ' :: (valueText value ++ rest)) := by
    simp [comparisonText]
  have skipped : skipSpace (valueText value ++ rest) = valueText value ++ rest :=
    skipSpace_of_stops (stops_isSpace_valueText finite)
  have last : tokens? size (valueText value ++ rest) =
      (tokens? size rest).map (Filter.valueToken value :: ·) := by
    apply tokens?_of_token
    rw [skipped]
    exact scanToken_value finite stop
  rw [shape, tokens?_property open_, tokens?_space, tokens?_comparison, last, leading_map,
    leading_map]
  rfl

/-- The text of a part in parentheses. -/
theorem tokens?_grouped (part : List Char) :
    tokens? size (grouped part ++ rest) =
      (tokens? size (part ++ ')' :: rest)).map (.opening :: ·) := by
  rw [grouped, List.cons_append, List.cons_append, List.append_assoc, tokens?_opening]
  rfl

theorem tokens?_negatedText (part : List Char) :
    tokens? size (negatedText part ++ rest) =
      ((tokens? size (part ++ ')' :: rest)).map (.opening :: ·)).map (.negation :: ·) := by
  have shape : negatedText part ++ rest = "not".toList ++ ' ' :: (grouped part ++ rest) := by
    simp [negatedText]
  have word : scanToken (skipSpace ("not".toList ++ ' ' :: (grouped part ++ rest))) =
      .token .negation (' ' :: (grouped part ++ rest)) := scanToken_not (stops_cons.mpr (by decide))
  rw [shape, tokens?_of_token word, tokens?_space, tokens?_grouped]

end Scanning

/-! ## Filters -/

/-- A comparison whose name and value can be told from what stands around them. -/
def isDelimited (_ : ComparisonOperator) (property : String) (value : FilterValue) : Bool :=
  !property.toList.contains ']' && value.isFinite

/-- A comparison of a property that has a name. -/
def isNamed (_ : ComparisonOperator) (property : String) (_ : FilterValue) : Bool := property != ""

theorem operandChars_cons {operator : CombinationOperator} {operand : Filter}
    {others : List Filter} {text : List Char}
    (rendered : operandChars operator (operand :: others) = .ok text) :
    ∃ part rest, chars operand = .ok part ∧ operandChars operator others = .ok rest ∧
      text = grouped part ++ if rest = [] then [] else
        ' ' :: operator.symbol.toList ++ ' ' :: rest := by
  rw [operandChars] at rendered
  split at rendered
  · cases rendered
  · rename_i part first
    split at rendered
    · cases rendered
    · rename_i last
      cases rendered
      exact ⟨part, [], first, last, by simp⟩
    · rename_i rest more last
      cases rendered
      exact ⟨part, rest, first, last, by simp [if_neg more]⟩

theorem operandChars_eq_ok_nil {operator : CombinationOperator} {operands : List Filter}
    (rendered : operandChars operator operands = .ok []) : operands = [] := by
  cases operands with
  | nil => rfl
  | cons operand others =>
    obtain ⟨part, rest, _, _, empty⟩ := operandChars_cons rendered
    simp [grouped] at empty

theorem stops_closing (rest : List Char) : Stops isWordChar (')' :: rest) :=
  stops_cons.mpr (by decide)

/-- The text of operands is cut into their tokens if that of each one is. -/
theorem tokens?_operandChars {operator : CombinationOperator} {operands : List Filter}
    {text : List Char} (rendered : operandChars operator operands = .ok text) (size : Nat)
    (rest : List Char)
    (each : ∀ operand ∈ operands, ∀ part rest, chars operand = .ok part →
      tokens? size (part ++ ')' :: rest) = leading (operand.every isNamed)
        (operand.tokens ++ [.closing]) (tokens? size rest)) :
    tokens? size (text ++ rest) = leading (Filter.everyOperand isNamed operands)
      (Filter.operandTokens operator operands) (tokens? size rest) := by
  induction operands generalizing text with
  | nil =>
    cases rendered
    simp [leading, Filter.everyOperand, Filter.operandTokens]
  | cons operand others ih =>
    obtain ⟨part, tail, first, last, rfl⟩ := operandChars_cons rendered
    rw [List.append_assoc, tokens?_grouped, each operand (List.mem_cons_self ..) part _ first,
      map_leading]
    cases others with
    | nil =>
      cases last
      simp [Filter.everyOperand, Filter.operandTokens, Filter.groupTokens]
    | cons second others =>
      have more : tail ≠ [] := by
        rintro rfl
        cases operandChars_eq_ok_nil last
      have following := ih last fun operand member =>
        each operand (List.mem_cons_of_mem _ member)
      rw [if_neg more, List.append_assoc, List.cons_append, List.cons_append, tokens?_space,
        tokens?_combination, following, map_leading, leading_leading]
      simp [Filter.everyOperand, Filter.operandTokens, Filter.groupTokens]

/-- The text of a filter is cut into its tokens, whatever follows that is no more of a word, if
every property has a name, and is no row of tokens otherwise. -/
theorem tokens?_chars {filter : Filter} (delimited : filter.every isDelimited) {text : List Char}
    (rendered : chars filter = .ok text) (size : Nat) {rest : List Char}
    (stop : Stops isWordChar rest) :
    tokens? size (text ++ rest) =
      leading (filter.every isNamed) filter.tokens (tokens? size rest) := by
  induction filter using Filter.inductionOn generalizing text rest with
  | comparison operator property value =>
    obtain ⟨open_, finite⟩ : ']' ∉ property.toList ∧ value.isFinite = true := by
      simpa [Filter.every, isDelimited] using delimited
    cases rendered
    by_cases unequal : operator = .notEqual
    · subst unequal
      rw [if_pos rfl, tokens?_negatedText,
        tokens?_comparisonText .equal open_ finite (stops_closing rest), tokens?_closing,
        leading_map, map_leading, map_leading]
      rfl
    · rw [if_neg unequal, tokens?_comparisonText operator open_ finite stop,
        Filter.tokens_comparison unequal]
      rfl
  | combination operator operands ih =>
    rw [chars] at rendered
    split at rendered
    · cases rendered
    · apply tokens?_operandChars rendered
      intro operand member part rest inner
      have within := Filter.everyOperand_iff.mp delimited operand member
      rw [ih operand member within inner (stops_closing rest), tokens?_closing, leading_map]
  | negation operand ih =>
    rw [chars] at rendered
    split at rendered
    · rename_i part inner
      cases rendered
      rw [tokens?_negatedText, ih delimited inner (stops_closing rest), tokens?_closing,
        leading_map, map_leading, map_leading]
      rfl
    · cases rendered

end CartoStyle.Expression
