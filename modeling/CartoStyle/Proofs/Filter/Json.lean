import CartoStyle.Filter.Json
import CartoStyle.Proofs.Filter.RoundTrip
import CartoStyle.Proofs.Json.Literal
import CartoStyle.Proofs.Outcome

/-!
# Filters from documents

Whatever array a filter is read from, its combinations have two operands or more and its numbers are
finite (`Filter.isDecoded_of_ofDraft`). So it has an expression, and that is read back as no other
filter as long as no name of a property closes the brackets around it
(`Filter.parse_render_of_ofDraft`). A name that does can say anything
(`Filter.parse_render_closingName`).
-/

namespace CartoStyle

open Json

/-! ## Numbers and operands -/

theorem Json.Draft.isFinite_of_complete {levels : Nat} {draft : Draft} {number : Number}
    (read : draft.complete levels = .ok (.number number)) : number.value.isFinite := by
  cases draft with
  | number literal =>
    rw [Draft.complete] at read
    split at read
    · rename_i found
      cases read
      exact Literal.isFinite_value found
    · cases read
  | string pieces =>
    obtain ⟨_, _, ⟨⟩⟩ := map_eq_ok_iff.mp read
  | array items =>
    rw [Draft.complete] at read
    split at read
    · cases read
    · obtain ⟨_, _, ⟨⟩⟩ := map_eq_ok_iff.mp read
  | object members =>
    rw [Draft.complete] at read
    split at read
    · cases read
    · obtain ⟨_, _, ⟨⟩⟩ := map_eq_ok_iff.mp read
  | _ => cases read

theorem FilterValue.isFinite_of_ofJson {levels : Nat} {draft : Draft} {json : Value}
    {value : FilterValue} (complete : draft.complete levels = .ok json)
    (read : ofJson json = .ok value) : value.isFinite := by
  cases json with
  | number number =>
    cases read
    exact Draft.isFinite_of_complete complete
  | null | string => cases read; rfl
  | _ => cases read

/-- A string that is spelled without escapes. -/
def Json.Draft.spelled (text : String) : Draft := .string (text.toList.map .char)

theorem Json.stringOf?_map_char (text : List Char) :
    stringOf? (text.map .char) = some (String.ofList text) := by
  have joined : joinPieces? false (text.map .char) = some text := by
    induction text with
    | nil => rfl
    | cons c text ih => rw [List.map_cons, joinPieces?, ih, Option.map_some]
  rw [stringOf?, joined, Option.map_some]

theorem Json.Draft.ofPieces_spelled (text : String) :
    ofPieces (text.toList.map .char) = .ok text := by
  rw [ofPieces, stringOf?_map_char, String.ofList_toList]

@[simp] theorem Json.Draft.text_spelled (text : String) : (spelled text).text = .ok text :=
  ofPieces_spelled text

@[simp] theorem Json.Draft.complete_spelled (levels : Nat) (text : String) :
    (spelled text).complete levels = .ok (.string text) := by
  rw [spelled, complete, ofPieces_spelled]
  rfl

namespace Filter

/-! ## One array -/

section Reading

variable {levels : Nat} {operator : ComparisonOperator} {first : Draft} {items others : Items}
  {filter : Filter}

/-- An array that is read as a filter begins with an operator, and its other items are what the
operator takes. -/
theorem ofItems_item_cases (read : ofItems levels (.item first others) = .ok filter) :
    ∃ word, first.text = .ok word ∧
      ((∃ operator : ComparisonOperator, Vocabulary.ofKeyword? word = some operator ∧
          comparisonOfItems levels operator others = .ok filter) ∨
        (∃ (operator : CombinationOperator) (operands : List Filter),
          Vocabulary.ofKeyword? word = some operator ∧
          operandsOfItems levels others = .ok operands ∧ 2 ≤ operands.length ∧
          filter = .combination operator operands) ∨
        word = negationSymbol ∧ negationOfItems levels others = .ok filter) := by
  rw [ofItems] at read
  obtain ⟨word, spelled, read⟩ := bind_eq_ok_iff.mp read
  refine ⟨word, spelled, ?_⟩
  split at read
  · exact .inl ⟨_, ‹_›, read⟩
  · split at read
    · rename_i operator known
      obtain ⟨operands, each, read⟩ := bind_eq_ok_iff.mp read
      split at read
      · cases read
      · cases read
        exact .inr (.inl ⟨operator, operands, known, each, by omega, rfl⟩)
    · split at read
      · exact .inr (.inr ⟨‹_›, read⟩)
      · cases read

theorem nextItem_eq_ok_iff {given : Nat} :
    nextItem given items = .ok (first, others) ↔ items = .item first others := by
  cases items <;> simp [nextItem]

theorem noMoreItems_eq_ok_iff {length : Nat} {description : String} :
    noMoreItems length description items = .ok () ↔ items = .closed := by
  cases items with
  | item first others =>
    refine ⟨fun read => ?_, nofun⟩
    obtain ⟨_, _, ⟨⟩⟩ := bind_eq_ok_iff.mp read
  | _ => simp [noMoreItems]

/-- A comparison is read from two items behind its operator. -/
theorem comparisonOfItems_cases (read : comparisonOfItems levels operator items = .ok filter) :
    ∃ name draft property json value, items = .item name (.item draft .closed) ∧
      name.text = .ok property ∧ draft.complete levels = .ok json ∧
      FilterValue.ofJson json = .ok value ∧ filter = .comparison operator property value := by
  rw [comparisonOfItems] at read
  obtain ⟨⟨name, rest⟩, front, read⟩ := bind_eq_ok_iff.mp read
  obtain ⟨property, spelled, read⟩ := bind_eq_ok_iff.mp read
  obtain ⟨⟨draft, rest'⟩, second, read⟩ := bind_eq_ok_iff.mp read
  obtain ⟨json, complete, read⟩ := bind_eq_ok_iff.mp read
  split at read
  · cases read
  · rename_i value ofJson
    obtain ⟨_, closed, read⟩ := bind_eq_ok_iff.mp read
    cases read
    rw [nextItem_eq_ok_iff] at front second
    rw [noMoreItems_eq_ok_iff] at closed
    exact ⟨name, draft, property, json, value, by rw [front, second, closed], spelled, complete,
      ofJson, rfl⟩

/-- A negation is read from one item behind its operator. -/
theorem negationOfItems_cases (read : negationOfItems levels (.item first others) = .ok filter) :
    ∃ operand, others = .closed ∧ ofDraft levels first = .ok operand ∧
      filter = .negation operand := by
  rw [negationOfItems] at read
  obtain ⟨operand, inside, read⟩ := bind_eq_ok_iff.mp read
  obtain ⟨_, closed, read⟩ := bind_eq_ok_iff.mp read
  cases read
  exact ⟨operand, noMoreItems_eq_ok_iff.mp closed, inside, rfl⟩

end Reading

/-- Filters as documents hold them. -/
def isDecoded (filter : Filter) : Bool := filter.isPaired && filter.every isMeasured

theorem isDecoded_combination {operator : CombinationOperator} {operands : List Filter}
    (several : 2 ≤ operands.length) (each : ∀ operand ∈ operands, operand.isDecoded) :
    (combination operator operands).isDecoded := by
  simp only [isDecoded, Bool.and_eq_true] at each ⊢
  refine ⟨?_, everyOperand_iff.mpr fun operand member => (each operand member).2⟩
  rw [isPaired, Bool.and_eq_true, decide_eq_true_eq, arePaired_iff]
  exact ⟨several, fun operand member => (each operand member).1⟩

theorem isDecoded_of_comparisonOfItems {levels : Nat} {operator : ComparisonOperator}
    {items : Items}
    {filter : Filter} (read : comparisonOfItems levels operator items = .ok filter) :
    filter.isDecoded := by
  obtain ⟨name, draft, property, json, value, -, -, complete, ofJson, rfl⟩ :=
    comparisonOfItems_cases read
  exact FilterValue.isFinite_of_ofJson complete ofJson

mutual

theorem isDecoded_of_ofDraft {levels : Nat} {draft : Draft} {filter : Filter}
    (read : ofDraft levels draft = .ok filter) : filter.isDecoded := by
  cases draft with
  | array items =>
    rw [ofDraft] at read
    split at read
    · cases read
    · exact isDecoded_of_ofItems read
  | _ => cases read

theorem isDecoded_of_ofItems {levels : Nat} {items : Items} {filter : Filter}
    (read : ofItems levels items = .ok filter) : filter.isDecoded := by
  cases items with
  | item first others =>
    obtain ⟨word, -, comparison | combination | negation⟩ := ofItems_item_cases read
    · obtain ⟨operator, -, compared⟩ := comparison
      exact isDecoded_of_comparisonOfItems compared
    · obtain ⟨operator, operands, -, inside, several, rfl⟩ := combination
      exact isDecoded_combination several (isDecoded_of_operandsOfItems inside)
    · exact isDecoded_of_negationOfItems negation.2
  | _ => cases read

theorem isDecoded_of_operandsOfItems {levels : Nat} {items : Items} {filters : List Filter}
    (read : operandsOfItems levels items = .ok filters) : ∀ filter ∈ filters, filter.isDecoded := by
  cases items with
  | closed =>
    cases read
    exact fun _ member => nomatch member
  | broken fault => cases read
  | item first others =>
    rw [operandsOfItems] at read
    obtain ⟨operand, here, read⟩ := bind_eq_ok_iff.mp read
    obtain ⟨operands, there, read⟩ := bind_eq_ok_iff.mp read
    cases read
    exact List.forall_mem_cons.mpr ⟨isDecoded_of_ofDraft here, isDecoded_of_operandsOfItems there⟩

theorem isDecoded_of_negationOfItems {levels : Nat} {items : Items} {filter : Filter}
    (read : negationOfItems levels items = .ok filter) : filter.isDecoded := by
  cases items with
  | item first others =>
    obtain ⟨operand, -, inside, rfl⟩ := negationOfItems_cases read
    have decoded : operand.isDecoded := isDecoded_of_ofDraft inside
    exact decoded
  | _ => cases read

end

/-! ## Reading the expression back -/

/-- A filter from a document has an expression, and if no name of a property in it closes its
brackets, then the expression is read back as the filter or not at all. -/
theorem parse_render_of_ofDraft {levels : Nat} {draft : Draft} {filter : Filter}
    (read : ofDraft levels draft = .ok filter) (enclosed : filter.every isEnclosed) :
    ∃ text, Expression.render filter = .ok text ∧
      ((∃ problem, Expression.parse text = .error problem) ∨
        Expression.parse text = .ok filter.desugared) := by
  have decoded := isDecoded_of_ofDraft read
  simp only [isDecoded, Bool.and_eq_true] at decoded
  obtain ⟨text, rendered⟩ := Expression.exists_render_iff.mpr decoded.1
  refine ⟨text, rendered, ?_⟩
  cases parsed : Expression.parse text with
  | error problem => exact .inl ⟨problem, rfl⟩
  | ok filter' =>
    have delimited := every_isDelimited_iff.mpr ⟨enclosed, decoded.2⟩
    obtain ⟨rfl, -, -⟩ := Expression.eq_desugared_of_parse rendered delimited parsed
    exact .inr rfl

/-- The array of a comparison for equality with a text. -/
def equality (property content : String) : Draft :=
  .array (.item (.spelled "==") (.item (.spelled property) (.item (.spelled content) .closed)))

theorem ofDraft_equality (property content : String) :
    ofDraft levelLimit (equality property content) =
      .ok (.comparison .equal property (.text content)) := by
  have known : Vocabulary.ofKeyword? "==" = some ComparisonOperator.equal := by decide
  simp [equality, ofDraft, levelLimit, ofItems, known, comparisonOfItems, nextItem, noMoreItems,
    FilterValue.ofJson]

theorem parse_render_quotes :
    ofDraft levelLimit (equality "name" "O'Brien] == 1 || [b") =
      .ok (.comparison .equal "name" (.text "O'Brien] == 1 || [b")) ∧
    (comparison .equal "name" (.text "O'Brien] == 1 || [b")).every isEnclosed ∧
    ∃ text, Expression.render (.comparison .equal "name" (.text "O'Brien] == 1 || [b")) = .ok text ∧
      ((∃ problem, Expression.parse text = .error problem) ∨
        Expression.parse text = .ok (.comparison .equal "name" (.text "O'Brien] == 1 || [b"))) :=
  ⟨ofDraft_equality .., by decide, parse_render_of_ofDraft (ofDraft_equality ..) (by decide)⟩

/-- A name that closes its brackets makes another filter of a comparison. -/
theorem parse_render_closingName :
    ofDraft levelLimit (equality "a] == 1 || [b" "x") =
      .ok (.comparison .equal "a] == 1 || [b" (.text "x")) ∧
    Expression.render (.comparison .equal "a] == 1 || [b" (.text "x")) =
      .ok "[a] == 1 || [b] == 'x'" ∧
    Expression.parse "[a] == 1 || [b] == 'x'" = .ok (.combination .or
      [.comparison .equal "a" (.number .one), .comparison .equal "b" (.text "x")]) ∧
    Filter.combination .or
        [.comparison .equal "a" (.number .one), .comparison .equal "b" (.text "x")] ≠
      desugared (.comparison .equal "a] == 1 || [b" (.text "x")) := by
  have scanned : Expression.scan "[a] == 1 || [b] == 'x'".toList = .ok [⟨.property "a", 0⟩,
      ⟨.comparison .equal, 4⟩, ⟨.number .one, 7⟩, ⟨.combination .or, 9⟩, ⟨.property "b", 12⟩,
      ⟨.comparison .equal, 16⟩, ⟨.text "x", 19⟩] :=
    Expression.eq_ok_of_toOption (by decide +kernel)
  refine ⟨ofDraft_equality .., rfl, ?_, nofun⟩
  rw [Expression.parse_of_scan scanned]
  rfl

end Filter

end CartoStyle
