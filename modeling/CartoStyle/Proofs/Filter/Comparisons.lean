import CartoStyle.Proofs.Filter.Expressible

/-!
# Comparisons of an expression

The comparisons of a filter, from left to right, are those that the tokens of its expression spell
out (`Expression.Derives.isPaired_and_holds`): each of them takes three neighbouring tokens, and
what is left over joins, negates or groups. So a filter that stands for a row of tokens has no
comparison of its own making, and none that the tokens spell out is lost, repeated or moved.
Whatever holds of every comparison of a filter can be shown of the tokens.
-/

namespace CartoStyle

/-- A property set against a value. -/
structure Comparison where
  operator : ComparisonOperator
  property : String
  value : FilterValue
deriving DecidableEq

/-- A comparison that an expression can hold: its operator can be read, brackets can enclose the
name of its property, and a number in it is one. -/
structure Comparison.IsSound (comparison : Comparison) : Prop where
  readable : comparison.operator ≠ .matching
  named : comparison.property ≠ ""
  enclosed : ']' ∉ comparison.property.toList
  counted : comparison.value ≠ .number .nan

namespace Filter

mutual

/-- The comparisons of a filter, from left to right. -/
def comparisons : Filter → List Comparison
  | .comparison operator property value => [⟨operator, property, value⟩]
  | .combination _ operands => operandComparisons operands
  | .negation operand => comparisons operand

/-- The comparisons of some filters, one after another. -/
def operandComparisons : List Filter → List Comparison
  | [] => []
  | operand :: others => comparisons operand ++ operandComparisons others

end

theorem operandComparisons_append (front back : List Filter) :
    operandComparisons (front ++ back) = operandComparisons front ++ operandComparisons back := by
  induction front with
  | nil => rfl
  | cons operand others ih =>
    rw [List.cons_append, operandComparisons, ih, operandComparisons, List.append_assoc]

theorem operandComparisons_singleton (filter : Filter) :
    operandComparisons [filter] = filter.comparisons := by
  rw [operandComparisons, operandComparisons, List.append_nil]

theorem mem_operandComparisons_iff {operands : List Filter} {comparison : Comparison} :
    comparison ∈ operandComparisons operands ↔
      ∃ operand ∈ operands, comparison ∈ operand.comparisons := by
  induction operands with
  | nil => simp [operandComparisons]
  | cons operand others ih => simp [operandComparisons, ih]

/-- A condition on every comparison is one on those that are listed. -/
theorem every_iff {p : ComparisonOperator → String → FilterValue → Bool} {filter : Filter} :
    filter.every p ↔ ∀ comparison ∈ filter.comparisons,
      p comparison.operator comparison.property comparison.value := by
  induction filter using inductionOn with
  | comparison operator property value => simp [every, comparisons]
  | combination operator operands ih =>
    rw [every, everyOperand_iff, comparisons]
    constructor
    · intro each comparison member
      obtain ⟨operand, inside, member⟩ := mem_operandComparisons_iff.mp member
      exact (ih operand inside).mp (each operand inside) comparison member
    · intro each operand inside
      apply (ih operand inside).mpr
      intro comparison member
      exact each comparison (mem_operandComparisons_iff.mpr ⟨operand, inside, member⟩)
  | negation operand ih => exact ih

theorem arePaired_singleton {filter : Filter} : arePaired [filter] ↔ filter.isPaired := by
  simp [arePaired]

theorem arePaired_append {front back : List Filter} :
    arePaired (front ++ back) ↔ arePaired front ∧ arePaired back := by
  simp only [arePaired_iff, List.forall_mem_append]

end Filter

namespace Expression

/-- A token that joins, negates or groups comparisons and is no part of one. -/
def Token.isConnective : Token → Bool
  | .combination _ | .negation | .opening | .closing => true
  | _ => false

/-- A row of tokens spells out some comparisons, one after another: three neighbours for each of
them, and connectives around them. -/
inductive Holds : List Token → List Comparison → Prop
  | nothing : Holds [] []
  | connective {token : Token} {tokens : List Token} {comparisons : List Comparison}
      (joins : token.isConnective) (rest : Holds tokens comparisons) :
      Holds (token :: tokens) comparisons
  | comparison {name : String} {operator : ComparisonOperator} {token : Token}
      {value : FilterValue} {tokens : List Token} {comparisons : List Comparison}
      (denotes : DenotesValue token value) (rest : Holds tokens comparisons) :
      Holds (.property name :: .comparison operator :: token :: tokens)
        (⟨operator, name, value⟩ :: comparisons)

namespace Holds

variable {tokens tokens' : List Token} {comparisons comparisons' : List Comparison}

theorem append (front : Holds tokens comparisons) (back : Holds tokens' comparisons') :
    Holds (tokens ++ tokens') (comparisons ++ comparisons') := by
  induction front with
  | nothing => exact back
  | connective joins _ ih => exact .connective joins ih
  | comparison denotes _ ih => exact .comparison denotes ih

/-- Two rows with a connective between them. -/
theorem join {token : Token} (front : Holds tokens comparisons) (joins : token.isConnective)
    (back : Holds tokens' comparisons') :
    Holds (tokens ++ token :: tokens') (comparisons ++ comparisons') :=
  front.append (.connective joins back)

/-- A row of tokens spells out one row of comparisons only. -/
theorem unique (holds : Holds tokens comparisons) (holds' : Holds tokens comparisons') :
    comparisons = comparisons' := by
  induction holds generalizing comparisons' with
  | nothing =>
    cases holds'
    rfl
  | connective joins _ ih =>
    cases holds' with
    | connective _ rest => exact ih rest
    | comparison => cases joins
  | comparison denotes _ ih =>
    cases holds' with
    | connective joins => cases joins
    | comparison denotes' rest =>
      have value := (value?_eq_some_iff.mpr denotes).symm.trans (value?_eq_some_iff.mpr denotes')
      rw [ih rest, Option.some.inj value]

/-- The tokens of a comparison are among those of the row. -/
theorem exists_of_mem (holds : Holds tokens comparisons) {comparison : Comparison}
    (member : comparison ∈ comparisons) :
    .property comparison.property ∈ tokens ∧ .comparison comparison.operator ∈ tokens ∧
      ∃ token ∈ tokens, DenotesValue token comparison.value := by
  induction holds with
  | nothing => cases member
  | connective _ _ ih =>
    obtain ⟨name, operator, token, inside, denotes⟩ := ih member
    exact ⟨.tail _ name, .tail _ operator, token, .tail _ inside, denotes⟩
  | comparison here _ ih =>
    rcases List.mem_cons.mp member with rfl | later
    · exact ⟨by simp, by simp, _, by simp, here⟩
    · obtain ⟨name, operator, token, inside, denotes⟩ := ih later
      exact ⟨by simp [name], by simp [operator], token, by simp [inside], denotes⟩

end Holds

/-! ## What derivations make -/

/-- A chain of filters that are paired and have the comparisons of some tokens is one more. -/
theorem Chained.isPaired_and_comparisons_eq {operator : CombinationOperator} {filters : List Filter}
    {filter : Filter} (chained : Chained operator filters filter)
    (each : Filter.arePaired filters) :
    filter.isPaired ∧ filter.comparisons = Filter.operandComparisons filters := by
  cases chained with
  | alone =>
    rw [Filter.operandComparisons_singleton]
    exact ⟨Filter.arePaired_iff.mp each filter (List.mem_singleton_self _), rfl⟩
  | several => exact ⟨by simp [Filter.isPaired, each], by rw [Filter.comparisons]⟩

mutual

/-- An operand has two operands in each combination, and the comparisons of its tokens. -/
theorem Operand.isPaired_and_holds {nesting : Nat} {tokens : List Token} {filter : Filter} :
    Operand nesting tokens filter → filter.isPaired ∧ Holds tokens filter.comparisons
  | .comparison _ denotes => ⟨rfl, .comparison denotes .nothing⟩
  | .negation operand => by
    obtain ⟨paired, holds⟩ := operand.isPaired_and_holds
    exact ⟨paired, .connective rfl holds⟩
  | .group inside chained => by
    obtain ⟨each, holds⟩ := inside.arePaired_and_holds
    obtain ⟨paired, same⟩ := chained.isPaired_and_comparisons_eq each
    have closing : Token.isConnective .closing := rfl
    have closed := holds.join closing .nothing
    rw [List.append_nil, ← same] at closed
    exact ⟨paired, .connective rfl closed⟩

theorem Operands.arePaired_and_holds {nesting : Nat} {tokens : List Token}
    {filters : List Filter} : Operands nesting tokens filters →
      Filter.arePaired filters ∧ Holds tokens (Filter.operandComparisons filters)
  | .one operand => by
    obtain ⟨paired, holds⟩ := operand.isPaired_and_holds
    rw [Filter.operandComparisons_singleton]
    exact ⟨Filter.arePaired_singleton.mpr paired, holds⟩
  | .more chain operand => by
    obtain ⟨front, holds⟩ := chain.arePaired_and_holds
    obtain ⟨back, holds'⟩ := operand.isPaired_and_holds
    rw [Filter.operandComparisons_append, Filter.operandComparisons_singleton,
      Filter.arePaired_append]
    exact ⟨⟨front, Filter.arePaired_singleton.mpr back⟩, holds.join rfl holds'⟩

theorem Alternatives.arePaired_and_holds {nesting : Nat} {tokens : List Token}
    {filters : List Filter} : Alternatives nesting tokens filters →
      Filter.arePaired filters ∧ Holds tokens (Filter.operandComparisons filters)
  | .one alternative chained => by
    obtain ⟨each, holds⟩ := alternative.arePaired_and_holds
    obtain ⟨paired, same⟩ := chained.isPaired_and_comparisons_eq each
    rw [Filter.operandComparisons_singleton, same]
    exact ⟨Filter.arePaired_singleton.mpr paired, holds⟩
  | .more chain alternative chained => by
    obtain ⟨front, holds⟩ := chain.arePaired_and_holds
    obtain ⟨each, holds'⟩ := alternative.arePaired_and_holds
    obtain ⟨back, same⟩ := chained.isPaired_and_comparisons_eq each
    rw [Filter.operandComparisons_append, Filter.operandComparisons_singleton, same,
      Filter.arePaired_append]
    exact ⟨⟨front, Filter.arePaired_singleton.mpr back⟩, holds.join rfl holds'⟩

end

/-- The combinations of a filter that is derived have two operands or more, and its comparisons are
those of the tokens that stand for it. -/
theorem Derives.isPaired_and_holds {nesting : Nat} {tokens : List Token} {filter : Filter}
    (derives : Derives nesting tokens filter) :
    filter.isPaired ∧ Holds tokens filter.comparisons := by
  obtain ⟨filters, alternatives, chained⟩ := derives
  obtain ⟨each, holds⟩ := alternatives.arePaired_and_holds
  obtain ⟨paired, same⟩ := chained.isPaired_and_comparisons_eq each
  rw [same]
  exact ⟨paired, holds⟩

theorem Derives.not_matching {nesting : Nat} {tokens : List Token} {filter : Filter}
    (derives : Derives nesting tokens filter) : .comparison .matching ∉ tokens := by
  obtain ⟨filters, alternatives, -⟩ := derives
  exact alternatives.not_matching

end Expression

end CartoStyle
