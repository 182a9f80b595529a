import CartoStyle.Filter.Json
import CartoStyle.Proofs.Filter.Expressible
import CartoStyle.Proofs.Json.Decode

/-!
# Filters read back from JSON

A draft that says the array of a filter is read as the filter (`Filter.ofDraft_of_complete`), if
every combination has the two operands that reading asks for.
-/

namespace CartoStyle

open Json

theorem FilterValue.ofJson_toJson (value : FilterValue) : ofJson value.toJson = .ok value := by
  cases value <;> rfl

namespace Filter

theorem ofKeyword?_symbol (operator : CombinationOperator) :
    Vocabulary.ofKeyword? (α := ComparisonOperator) operator.symbol = none := by
  cases operator <;> decide

section Items

variable {levels : Nat} {first second third : Draft}

theorem ofItems_comparison {operator : ComparisonOperator} {property : String} {json : Value}
    {value : FilterValue} (symbol : first.complete levels = .ok (.string operator.symbol))
    (name : second.complete levels = .ok (.string property))
    (whole : third.complete levels = .ok json) (read : FilterValue.ofJson json = .ok value) :
    ofItems levels (.item first (.item second (.item third .closed))) =
      .ok (.comparison operator property value) := by
  have known : Vocabulary.ofKeyword? operator.symbol = some operator :=
    Vocabulary.ofKeyword?_keyword operator
  simp only [ofItems, Draft.text, Draft.word_of_complete _ symbol, ok_bind, known,
    comparisonOfItems, nextItem, Draft.word_of_complete _ name, whole, read, noMoreItems]
  rfl

theorem ofItems_combination {operator : CombinationOperator} {operands : List Filter}
    {others : Items} (symbol : first.complete levels = .ok (.string operator.symbol))
    (read : operandsOfItems levels others = .ok operands) (several : 2 ≤ operands.length) :
    ofItems levels (.item first others) = .ok (.combination operator operands) := by
  have known : Vocabulary.ofKeyword? operator.symbol = some operator :=
    Vocabulary.ofKeyword?_keyword operator
  simp only [ofItems, Draft.text, Draft.word_of_complete _ symbol, ok_bind, ofKeyword?_symbol,
    known, read]
  rw [if_neg (by omega)]
  rfl

theorem ofItems_negation {operand : Filter}
    (symbol : first.complete levels = .ok (.string negationSymbol))
    (read : ofDraft levels second = .ok operand) :
    ofItems levels (.item first (.item second .closed)) = .ok (.negation operand) := by
  have notComparison : Vocabulary.ofKeyword? (α := ComparisonOperator) negationSymbol = none := by
    decide
  have notCombination : Vocabulary.ofKeyword? (α := CombinationOperator) negationSymbol = none := by
    decide
  simp only [ofItems, Draft.text, Draft.word_of_complete _ symbol, ok_bind, notComparison,
    notCombination, if_true, negationOfItems, read, noMoreItems]
  rfl

end Items

mutual

/-- A draft that says the array of a filter is read as the filter. -/
theorem ofDraft_of_complete (filter : Filter) {levels : Nat} {draft : Draft}
    (paired : filter.isPaired) (said : draft.complete levels = .ok filter.toJson) :
    ofDraft levels draft = .ok filter := by
  match filter with
  | .comparison operator property value =>
    rw [toJson] at said
    obtain ⟨left, items, rfl, inside⟩ := Draft.complete_eq_ok_iff.mp said
    obtain ⟨first, _, rfl, symbol, inside⟩ := Items.complete_eq_cons_iff.mp inside
    obtain ⟨second, _, rfl, name, inside⟩ := Items.complete_eq_cons_iff.mp inside
    obtain ⟨third, _, rfl, whole, inside⟩ := Items.complete_eq_cons_iff.mp inside
    rw [ofDraft, if_neg left, Items.complete_eq_nil_iff.mp inside]
    exact ofItems_comparison symbol name whole (FilterValue.ofJson_toJson value)
  | .combination operator operands =>
    rw [isPaired, Bool.and_eq_true, decide_eq_true_eq] at paired
    rw [toJson] at said
    obtain ⟨left, items, rfl, inside⟩ := Draft.complete_eq_ok_iff.mp said
    obtain ⟨first, others, rfl, symbol, inside⟩ := Items.complete_eq_cons_iff.mp inside
    rw [ofDraft, if_neg left]
    exact ofItems_combination symbol (operandsOfItems_of_complete operands paired.2 inside)
      paired.1
  | .negation operand =>
    rw [isPaired] at paired
    rw [toJson] at said
    obtain ⟨left, items, rfl, inside⟩ := Draft.complete_eq_ok_iff.mp said
    obtain ⟨first, _, rfl, symbol, inside⟩ := Items.complete_eq_cons_iff.mp inside
    obtain ⟨second, _, rfl, whole, inside⟩ := Items.complete_eq_cons_iff.mp inside
    rw [ofDraft, if_neg left, Items.complete_eq_nil_iff.mp inside]
    exact ofItems_negation symbol (ofDraft_of_complete operand paired whole)

theorem operandsOfItems_of_complete (operands : List Filter) {levels : Nat} {items : Items}
    (paired : arePaired operands) (said : items.complete levels = .ok (toJsonList operands)) :
    operandsOfItems levels items = .ok operands := by
  match operands with
  | [] =>
    rw [Items.complete_eq_nil_iff.mp said]
    rfl
  | operand :: others =>
    rw [arePaired, Bool.and_eq_true] at paired
    rw [toJsonList] at said
    obtain ⟨first, rest, rfl, here, there⟩ := Items.complete_eq_cons_iff.mp said
    rw [operandsOfItems, ofDraft_of_complete operand paired.1 here,
      operandsOfItems_of_complete others paired.2 there]
    rfl

end

theorem toJson_ne_null (filter : Filter) : filter.toJson ≠ .null := by
  cases filter <;> rw [toJson] <;> nofun

end Filter

end CartoStyle
