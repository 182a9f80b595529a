import CartoStyle.Proofs.Filter.RoundTrip

/-!
# Cutting an expression from the front

A part of a text is cut into tokens with all that follows it in place, for a word goes on as long as
it can. The tokens of the rest follow those of the part, each where it stands in the whole text
(`Cuts`), so parts are put together one after another.

The text of a filter whose names are visible and do not close their brackets is such a part,
whatever its values are (`exists_spells`): numbers without digits are written too, though they are
read as words. If the filter holds no pattern match, then its tokens are an expression, nested as
deep as the filter.
-/

namespace CartoStyle.Expression

open Text

/-! ## Parts of a text -/

section Scanning

variable {size : Nat} {text text' rest : List Char} {tokens tokens' : List Token} {token : Token}

/-- A text is cut into tokens where the rest begins, and the tokens of the rest follow. -/
def Cuts (text : List Char) (tokens : List Token) (rest : List Char) : Prop :=
  ∀ size, ∃ placed : List Placed, placed.map Placed.token = tokens ∧
    scanFrom size (text ++ rest) = (scanFrom size rest).map (placed ++ ·)

namespace Cuts

theorem space : Cuts [' '] [] rest := by
  intro size
  refine ⟨[], rfl, ?_⟩
  have skipped : skipSpace (' ' :: rest) = skipSpace rest := rfl
  rw [List.singleton_append, scanFrom_congr skipped]
  cases scanFrom size rest with
  | error problem => rfl
  | ok others => rfl

theorem append (first : Cuts text tokens (text' ++ rest)) (second : Cuts text' tokens' rest) :
    Cuts (text ++ text') (tokens ++ tokens') rest := by
  intro size
  obtain ⟨placed, rfl, front⟩ := first size
  obtain ⟨placed', rfl, back⟩ := second size
  refine ⟨placed ++ placed', List.map_append, ?_⟩
  rw [List.append_assoc, front, back]
  cases scanFrom size rest with
  | error problem => rfl
  | ok others => simp [Except.map]

theorem of_token (found : scanToken (skipSpace (text ++ rest)) = .token token rest) :
    Cuts text [token] rest :=
  fun _ => ⟨[_], rfl, scanFrom_of_token found⟩

theorem opening : Cuts ['('] [.opening] rest := of_token rfl

theorem closing : Cuts [')'] [.closing] rest := of_token rfl

/-- Symbols have a space behind them. -/
theorem comparison (operator : ComparisonOperator) :
    Cuts operator.symbol.toList [.comparison operator] (' ' :: rest) := by
  cases operator <;> exact of_token rfl

theorem combination (operator : CombinationOperator) :
    Cuts operator.symbol.toList [.combination operator] (' ' :: rest) := by
  cases operator <;> exact of_token rfl

theorem negation : Cuts "not".toList [.negation] (' ' :: rest) :=
  of_token (scanToken_not (stops_cons.mpr (by decide)))

theorem property {name : String} (open_ : ']' ∉ name.toList) (named : name ≠ "") :
    Cuts ('[' :: name.toList ++ [']']) [.property name] rest := by
  have nonempty : name.toList ≠ [] := by simpa using named
  apply of_token
  have skipped : skipSpace ('[' :: name.toList ++ [']'] ++ rest) =
      '[' :: name.toList ++ ']' :: rest := by simp [skipSpace, isSpace]
  rw [skipped, scanToken, scanProperty?_name open_ nonempty, String.ofList_toList]
  rfl

end Cuts

/-- A text is cut into tokens wherever no word goes on behind it. -/
def Spells (text : List Char) (tokens : List Token) : Prop :=
  ∀ rest, Stops isWordChar rest → Cuts text tokens rest

namespace Spells

theorem grouped (part : Spells text tokens) :
    Cuts (grouped text) (Filter.groupTokens tokens) rest := by
  have inside := part (')' :: rest) (stops_closing rest)
  exact Cuts.opening.append (inside.append .closing)

theorem negatedText (part : Spells text tokens) :
    Cuts (negatedText text) (.negation :: Filter.groupTokens tokens) rest :=
  Cuts.negation.append (Cuts.space.append part.grouped)

end Spells

/-! ## Comparisons -/

/-- The token that the text of a value is read as. -/
def shownValue : FilterValue → Token
  | .number value => if value.isFinite then .number value else .word value.text
  | value => Filter.valueToken value

/-- A number without digits is written as a word. -/
theorem scanToken_wordNumber {x : Binary64} (infinite : x.isFinite = false)
    (stop : Stops isWordChar rest) :
    scanToken (x.chars .plain ++ rest) = .token (.word x.text) rest := by
  match x with
  | .nan => exact scanToken_word (by decide) rfl (by decide) stop
  | .infinite true => exact scanToken_word (by decide) rfl (by decide) stop
  | .infinite false => exact scanToken_word (by decide) rfl (by decide) stop

theorem cuts_valueText (value : FilterValue) (stop : Stops isWordChar rest) :
    Cuts (valueText value) [shownValue value] rest := by
  apply Cuts.of_token
  by_cases finite : value.isFinite = true
  · have token : shownValue value = Filter.valueToken value := by
      cases value with
      | number x => exact if_pos finite
      | _ => rfl
    rw [skipSpace_of_stops (stops_isSpace_valueText finite), token]
    exact scanToken_value finite stop
  · cases value with
    | number x =>
      have infinite : x.isFinite = false := Bool.eq_false_iff.mpr finite
      have skipped : skipSpace (x.chars .plain ++ rest) = x.chars .plain ++ rest := by
        match x with
        | .nan | .infinite true | .infinite false => rfl
      rw [valueText, skipped, shownValue, infinite]
      exact scanToken_wordNumber infinite stop
    | _ => exact absurd rfl finite

theorem exists_denotesValue (value : FilterValue) :
    ∃ value', DenotesValue (shownValue value) value' := by
  cases value with
  | null => exact ⟨_, .null⟩
  | text content => exact ⟨_, .text content⟩
  | number x =>
    match x with
    | .nan | .infinite true | .infinite false => exact ⟨_, .word (by decide)⟩
    | .finite negative magnitude => exact ⟨_, .number _⟩

theorem spells_comparisonText (operator : ComparisonOperator) {property : String}
    (value : FilterValue) (open_ : ']' ∉ property.toList) (named : property ≠ "") :
    Spells (comparisonText operator property value)
      [.property property, .comparison operator, shownValue value] := by
  intro rest stop
  have shape : comparisonText operator property value =
      ('[' :: property.toList ++ [']']) ++ ([' '] ++ (operator.symbol.toList ++
        ([' '] ++ valueText value))) := by simp [comparisonText]
  rw [shape]
  exact (Cuts.property open_ named).append (Cuts.space.append ((Cuts.comparison operator).append
    (Cuts.space.append (cuts_valueText value stop))))

end Scanning

/-! ## Filters -/

/-- The text of operands is cut into their tokens, grouped and joined by the operator. They are a
row of operands if each of them is an expression. -/
theorem exists_cuts_operandChars {operator : CombinationOperator} {operands : List Filter}
    {text : List Char} (nonempty : operands ≠ [])
    (rendered : operandChars operator operands = .ok text)
    (each : ∀ operand ∈ operands, ∀ part, chars operand = .ok part →
      ∃ tokens, Spells part tokens ∧
        (operand.every Filter.isReadable → ∃ filter, Derives operand.nesting tokens filter)) :
    ∃ tokens, (∀ rest, Cuts text tokens rest) ∧
      (Filter.everyOperand Filter.isReadable operands →
        ∃ filters, Row operator (1 + Filter.operandNesting operands) tokens filters) := by
  induction operands generalizing text with
  | nil => exact absurd rfl nonempty
  | cons first others ih =>
    obtain ⟨part, tail, head, last, rfl⟩ := operandChars_cons rendered
    obtain ⟨tokens, spells, derives⟩ := each first (List.mem_cons_self ..) part head
    cases others with
    | nil =>
      cases last
      refine ⟨Filter.groupTokens tokens, fun rest => ?_, fun readable => ?_⟩
      · rw [if_pos rfl, List.append_nil]
        exact spells.grouped
      · rw [Filter.everyOperand, Bool.and_eq_true] at readable
        obtain ⟨filter, expression⟩ := derives readable.1
        have single : Row operator _ _ _ := Row.one expression.group
        rw [Nat.add_comm, ← Nat.max_zero first.nesting] at single
        exact ⟨[filter], single⟩
    | cons second others =>
      have more : tail ≠ [] := by
        rintro rfl
        cases operandChars_eq_ok_nil last
      obtain ⟨tokens', cuts', row⟩ := ih (by simp) last fun operand member =>
        each operand (List.mem_cons_of_mem _ member)
      refine ⟨Filter.groupTokens tokens ++ .combination operator :: tokens', fun rest => ?_,
        fun readable => ?_⟩
      · rw [if_neg more]
        have joined := Cuts.space.append ((Cuts.combination operator).append
          (Cuts.space.append (cuts' rest)))
        exact spells.grouped.append joined
      · rw [Filter.everyOperand, Bool.and_eq_true] at readable
        obtain ⟨filter, expression⟩ := derives readable.1
        obtain ⟨filters, tail⟩ := row readable.2
        have longer := tail.cons expression.group
        rw [Nat.add_comm first.nesting, Nat.add_max_add_left] at longer
        exact ⟨filter :: filters, longer⟩

/-- The text of a filter is cut into tokens, and without pattern matches they are an expression that
nests as deep as the filter. -/
theorem exists_spells {filter : Filter} {text : List Char} (named : filter.every isNamed)
    (enclosed : filter.every Filter.isEnclosed) (rendered : chars filter = .ok text) :
    ∃ tokens, Spells text tokens ∧
      (filter.every Filter.isReadable → ∃ filter', Derives filter.nesting tokens filter') := by
  induction filter using Filter.inductionOn generalizing text with
  | comparison operator property value =>
    have visible : property ≠ "" := by simpa [Filter.every, isNamed] using named
    have open_ : ']' ∉ property.toList := by
      simpa [Filter.every, Filter.isEnclosed] using enclosed
    obtain ⟨value', denotes⟩ := exists_denotesValue value
    cases rendered
    by_cases unequal : operator = .notEqual
    · subst unequal
      have equality := spells_comparisonText .equal value open_ visible
      have operand : Operand 0 [.property property, .comparison .equal, shownValue value] _ :=
        .comparison (by decide) denotes
      exact ⟨_, fun _ _ => equality.negatedText,
        fun _ => ⟨_, operand.derives.group.negation.derives⟩⟩
    · rw [if_neg unequal, Filter.nesting_comparison unequal]
      refine ⟨_, spells_comparisonText operator value open_ visible, fun readable => ?_⟩
      have known : operator ≠ .matching := by
        simpa [Filter.every, Filter.isReadable, ComparisonOperator.isReadable] using readable
      exact ⟨_, (Operand.comparison known denotes).derives⟩
  | combination operator operands ih =>
    rw [chars] at rendered
    split at rendered
    · cases rendered
    · rename_i several
      have nonempty : operands ≠ [] := by
        rintro rfl
        exact several (by decide)
      obtain ⟨tokens, cuts, row⟩ := exists_cuts_operandChars nonempty rendered
        fun operand member part inner => ih operand member
          (Filter.everyOperand_iff.mp named operand member)
          (Filter.everyOperand_iff.mp enclosed operand member) inner
      refine ⟨tokens, fun rest _ => cuts rest, fun readable => ?_⟩
      obtain ⟨filters, row⟩ := row readable
      exact ⟨_, row.derives (chained_iff.mpr ⟨row.ne_nil, rfl⟩)⟩
  | negation operand ih =>
    rw [chars] at rendered
    split at rendered
    · rename_i part inner
      cases rendered
      obtain ⟨tokens, spells, derives⟩ := ih named enclosed inner
      refine ⟨_, fun _ _ => spells.negatedText, fun readable => ?_⟩
      obtain ⟨filter', expression⟩ := derives readable
      have negated := expression.group.negation.derives
      rw [Nat.add_assoc, Nat.add_comm] at negated
      exact ⟨_, negated⟩
    · cases rendered

end CartoStyle.Expression
