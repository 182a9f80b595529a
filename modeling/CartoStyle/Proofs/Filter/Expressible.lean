import CartoStyle.Filter.Expression.Render
import CartoStyle.Proofs.Filter.Grammar

/-!
 # Filters as expressions

Not every filter can be written down as an expression and read back. The conditions for it concern
its comparisons one by one (`Filter.every`) and the number of operands of its combinations
(`Filter.isPaired`). What is read back is the filter with its inequalities spelled as negations of
equalities (`Filter.desugared`), and the expression nests as deep as `Filter.nesting` says: the row
of tokens of a filter derives it with exactly that nesting (`Filter.derives_tokens`).
-/

namespace CartoStyle

open Expression

/-- A value that is no number, or one that has digits. -/
def FilterValue.isFinite : FilterValue → Bool
  | .number value => value.isFinite
  | _ => true

namespace Filter

/-! ## Conditions on the parts of a filter -/

mutual

/-- Every comparison of a filter meets a condition. -/
def every (p : ComparisonOperator → String → FilterValue → Bool) : Filter → Bool
  | .comparison operator property value => p operator property value
  | .combination _ operands => everyOperand p operands
  | .negation operand => every p operand

/-- Every comparison of some filters meets a condition. -/
def everyOperand (p : ComparisonOperator → String → FilterValue → Bool) : List Filter → Bool
  | [] => true
  | operand :: others => every p operand && everyOperand p others

end

mutual

/-- Every combination of a filter has at least two operands. -/
def isPaired : Filter → Bool
  | .comparison .. => true
  | .combination _ operands => 2 ≤ operands.length && arePaired operands
  | .negation operand => isPaired operand

/-- Every combination of some filters has at least two operands. -/
def arePaired : List Filter → Bool
  | [] => true
  | operand :: others => isPaired operand && arePaired others

end

/-! ## What an expression says of a filter -/

mutual

/-- A filter whose inequalities are negations of equalities. -/
def desugared : Filter → Filter
  | .comparison .notEqual property value => .negation (.comparison .equal property value)
  | .comparison operator property value => .comparison operator property value
  | .combination operator operands => .combination operator (desugaredOperands operands)
  | .negation operand => .negation (desugared operand)

def desugaredOperands : List Filter → List Filter
  | [] => []
  | operand :: others => desugared operand :: desugaredOperands others

end

mutual

/-- How many groups and negations are open at once in the expression of a filter. -/
def nesting : Filter → Nat
  | .comparison .notEqual _ _ => 2
  | .comparison .. => 0
  | .combination _ operands => 1 + operandNesting operands
  | .negation operand => 2 + nesting operand

/-- The largest nesting of some filters. -/
def operandNesting : List Filter → Nat
  | [] => 0
  | operand :: others => max (nesting operand) (operandNesting others)

end

/-! ## The tokens of an expression -/

/-- The token of a value. -/
def valueToken : FilterValue → Token
  | .null => .word "null"
  | .number value => .number value
  | .text content => .text content

def comparisonTokens (operator : ComparisonOperator) (property : String) (value : FilterValue) :
    List Token :=
  [.property property, .comparison operator, valueToken value]

/-- Tokens in parentheses. -/
def groupTokens (tokens : List Token) : List Token := .opening :: tokens ++ [.closing]

mutual

/-- The tokens of a filter's expression. -/
def tokens : Filter → List Token
  | .comparison .notEqual property value =>
    .negation :: groupTokens (comparisonTokens .equal property value)
  | .comparison operator property value => comparisonTokens operator property value
  | .combination operator operands => operandTokens operator operands
  | .negation operand => .negation :: groupTokens (tokens operand)

/-- The tokens of the operands of a combination, its own between them. -/
def operandTokens (operator : CombinationOperator) : List Filter → List Token
  | [] => []
  | [operand] => groupTokens (tokens operand)
  | first :: second :: others =>
    groupTokens (tokens first) ++ .combination operator :: operandTokens operator (second :: others)

end

/-! ## The tokens of a filter derive it -/

/-- What holds of comparisons, and of combinations and negations if it does of their operands, holds
of every filter. -/
@[elab_as_elim]
theorem inductionOn {motive : Filter → Prop} (filter : Filter)
    (comparison : ∀ operator property value, motive (.comparison operator property value))
    (combination : ∀ operator operands, (∀ operand ∈ operands, motive operand) →
      motive (.combination operator operands))
    (negation : ∀ operand, motive operand → motive (.negation operand)) : motive filter := by
  refine @Filter.rec motive (fun operands => ∀ operand ∈ operands, motive operand)
    comparison combination negation ?_ ?_ filter
  · simp
  · intro operand others first rest
    exact List.forall_mem_cons.mpr ⟨first, rest⟩

theorem denotesValue_valueToken (value : FilterValue) : DenotesValue (valueToken value) value := by
  cases value with
  | null => exact .null
  | number value => exact .number value
  | text content => exact .text content

theorem everyOperand_iff {p : ComparisonOperator → String → FilterValue → Bool}
    {operands : List Filter} :
    everyOperand p operands = true ↔ ∀ operand ∈ operands, operand.every p := by
  induction operands with
  | nil => simp [everyOperand]
  | cons operand others ih => simp [everyOperand, ih]

theorem arePaired_iff {operands : List Filter} :
    arePaired operands = true ↔ ∀ operand ∈ operands, operand.isPaired := by
  induction operands with
  | nil => simp [arePaired]
  | cons operand others ih => simp [arePaired, ih]

theorem desugaredOperands_eq_map (operands : List Filter) :
    desugaredOperands operands = operands.map desugared := by
  induction operands with
  | nil => rfl
  | cons operand others ih => rw [desugaredOperands, ih, List.map_cons]

section Comparison

variable {operator : ComparisonOperator} {property : String} {value : FilterValue}

theorem desugared_comparison (other : operator ≠ .notEqual) :
    desugared (.comparison operator property value) = .comparison operator property value := by
  cases operator <;> first | rfl | exact absurd rfl other

theorem nesting_comparison (other : operator ≠ .notEqual) :
    nesting (.comparison operator property value) = 0 := by
  cases operator <;> first | rfl | exact absurd rfl other

theorem tokens_comparison (other : operator ≠ .notEqual) :
    tokens (.comparison operator property value) = comparisonTokens operator property value := by
  cases operator <;> first | rfl | exact absurd rfl other

end Comparison

theorem operandTokens_cons_cons (operator : CombinationOperator) (first second : Filter)
    (others : List Filter) :
    operandTokens operator (first :: second :: others) = groupTokens first.tokens ++
      .combination operator :: operandTokens operator (second :: others) := rfl

theorem mem_operandTokens {operator : CombinationOperator} {operands : List Filter}
    {operand : Filter} {token : Token} (member : operand ∈ operands)
    (present : token ∈ operand.tokens) : token ∈ operandTokens operator operands := by
  induction operands with
  | nil => cases member
  | cons first others ih =>
    have inside : token ∈ groupTokens operand.tokens := by simp [groupTokens, present]
    cases others with
    | nil =>
      obtain rfl := List.mem_singleton.mp member
      exact inside
    | cons second others =>
      rw [operandTokens_cons_cons, List.mem_append, List.mem_cons]
      rcases List.mem_cons.mp member with rfl | later
      · exact .inl inside
      · exact .inr (.inr (ih later))

/-- Grouped filters joined by an operator are a row of its operands. -/
theorem row_operandTokens {operator : CombinationOperator} {operands : List Filter}
    (nonempty : operands ≠ [])
    (each : ∀ operand ∈ operands,
      Operand (operand.nesting + 1) (groupTokens operand.tokens) operand.desugared) :
    Row operator (1 + operandNesting operands) (operandTokens operator operands)
      (desugaredOperands operands) := by
  induction operands with
  | nil => exact absurd rfl nonempty
  | cons first others ih =>
    have head := each first (List.mem_cons_self ..)
    cases others with
    | nil =>
      have single : Row operator _ _ _ := Row.one head
      rw [Nat.add_comm, ← Nat.max_zero first.nesting] at single
      exact single
    | cons second others =>
      have tail := ih (by simp) fun operand member =>
        each operand (List.mem_cons_of_mem _ member)
      have row := tail.cons head
      rw [Nat.add_comm first.nesting, Nat.add_max_add_left] at row
      exact row

theorem chained_desugaredOperands (operator : CombinationOperator) {operands : List Filter}
    (several : 2 ≤ operands.length) :
    Chained operator (desugaredOperands operands)
      (.combination operator (desugaredOperands operands)) := by
  match operands, several with
  | first :: second :: others, _ => exact .several ..

/-- A comparison that can be read back. -/
def isReadable (operator : ComparisonOperator) (_ : String) (_ : FilterValue) : Bool :=
  operator.isReadable

theorem operand_comparisonTokens {operator : ComparisonOperator} (readable : operator.isReadable)
    (property : String) (value : FilterValue) :
    Operand 0 (comparisonTokens operator property value) (.comparison operator property value) :=
  .comparison (by simpa [ComparisonOperator.isReadable] using readable)
    (denotesValue_valueToken value)

/-- The tokens of a filter are an expression of it, nested exactly as deep as the filter. -/
theorem derives_tokens {filter : Filter} (paired : filter.isPaired)
    (readable : filter.every isReadable) :
    Derives filter.nesting filter.tokens filter.desugared := by
  induction filter using inductionOn with
  | comparison operator property value =>
    by_cases unequal : operator = .notEqual
    · subst unequal
      have equality : Operand 0 (comparisonTokens .equal property value) _ :=
        operand_comparisonTokens rfl property value
      exact equality.derives.group.negation.derives
    · rw [nesting_comparison unequal, tokens_comparison unequal, desugared_comparison unequal]
      exact (operand_comparisonTokens readable property value).derives
  | negation operand ih =>
    have group := (ih paired readable).group
    have negated := group.negation.derives
    rwa [Nat.add_assoc, Nat.add_comm] at negated
  | combination operator operands ih =>
    simp only [isPaired, Bool.and_eq_true, decide_eq_true_eq] at paired
    obtain ⟨several, paired⟩ := paired
    have each (operand : Filter) (member : operand ∈ operands) :
        Operand (operand.nesting + 1) (groupTokens operand.tokens) operand.desugared :=
      (ih operand member (arePaired_iff.mp paired operand member)
        (everyOperand_iff.mp readable operand member)).group
    have nonempty : operands ≠ [] := by
      rintro rfl
      exact absurd several (by decide)
    exact (row_operandTokens nonempty each).derives (chained_desugaredOperands operator several)

end Filter

end CartoStyle
