import CartoStyle.Proofs.Filter.Codec
import CartoStyle.Proofs.Filter.Json
import CartoStyle.Proofs.Filter.Parsed
import CartoStyle.Proofs.Json.Parts
import CartoStyle.Style.Json

/-!
# The levels of documents and of expressions

In a document at most a hundred and twenty-seven arrays and objects are open at once, in an
expression two hundred and fifty-six groups and negations. A level of the document costs a filter at
most two of its expression, one for a negation and one for the parentheses behind it
(`Filter.nesting_le_of_ofDraft`), and twice the one limit stays below the other. So the expression
of a filter that a document gives is never refused for its depth, whether the document is the filter
alone or a style with the filter in one of its rules (`Filter.parse_render_of_isGiven`).
-/

namespace CartoStyle

open Json

/-! ## Where the filters of a document are read -/

/-- The filter of a rule is read one level inside the rule. -/
theorem Rule.exists_of_filter {levels : Nat} {draft : Draft} {rule : Rule}
    (read : Rule.ofDraft levels draft = .ok rule) :
    ∀ filter ∈ rule.filter, ∃ draft, Filter.ofDraft (levels - 1) draft = .ok filter := by
  refine Draft.record_keeps (P := fun rule : Rule =>
    ∀ filter ∈ rule.filter, ∃ draft, Filter.ofDraft (levels - 1) draft = .ok filter)
    (fun field present draft before after holds here => ?_) (fun _ given => by cases given) read
  simp only [Rule.fields, List.mem_cons, List.not_mem_nil, or_false] at present
  -- the other fields leave the filter as it is
  rcases present with rfl | rfl | rfl | rfl <;> obtain ⟨part, said, rfl⟩ := map_eq_ok_iff.mp here
  · exact holds
  · rintro filter rfl
    exact ⟨draft, Draft.read_of_optional said⟩
  · exact holds
  · exact holds

/-- The filters of a style are read three levels inside it: in a rule, in the list of rules. -/
theorem Style.exists_of_filter {levels : Nat} {draft : Draft} {style : Style}
    (read : Style.ofDraft levels draft = .ok style) :
    ∀ rule ∈ style.rules, ∀ filter ∈ rule.filter,
      ∃ draft, Filter.ofDraft (levels - 3) draft = .ok filter := by
  refine Draft.record_keeps (P := fun style : Style => ∀ rule ∈ style.rules,
    ∀ filter ∈ rule.filter, ∃ draft, Filter.ofDraft (levels - 3) draft = .ok filter)
    (fun field present draft before after holds here => ?_) (fun _ member => by cases member) read
  simp only [Style.fields, List.mem_cons, List.not_mem_nil, or_false] at present
  rcases present with rfl | rfl <;> obtain ⟨part, said, rfl⟩ := map_eq_ok_iff.mp here
  · exact holds
  · intro rule member
    obtain ⟨item, inside⟩ := Draft.exists_of_mem_list said rule member
    exact Rule.exists_of_filter inside

namespace Filter

/-- A text gives a filter: it is the filter, or a style with the filter in one of its rules. -/
inductive IsGiven (text : String) (filter : Filter) : Prop where
  | alone (read : decode ofDraft text = .ok filter)
  | inRule {style : Style} {rule : Rule} (read : Style.ofJsonText text = .ok style)
    (member : rule ∈ style.rules) (given : rule.filter = some filter)

theorem IsGiven.exists_ofDraft {text : String} {filter : Filter} (given : IsGiven text filter) :
    ∃ levels ≤ levelLimit, ∃ draft, ofDraft levels draft = .ok filter := by
  cases given with
  | alone read => exact ⟨_, Nat.le_refl _, exists_of_decode read⟩
  | inRule read member given =>
    obtain ⟨draft, inside⟩ := exists_of_decode read
    exact ⟨_, Nat.sub_le .., Style.exists_of_filter inside _ member _ given⟩

/-! ## Levels of the expression -/

theorem operandNesting_le_iff {operands : List Filter} {bound : Nat} :
    operandNesting operands ≤ bound ↔ ∀ operand ∈ operands, operand.nesting ≤ bound := by
  induction operands with
  | nil => simp [operandNesting]
  | cons operand others ih => simp [operandNesting, ih]

theorem nesting_comparison_le (operator : ComparisonOperator) (property : String)
    (value : FilterValue) : (comparison operator property value).nesting ≤ 2 := by
  by_cases unequal : operator = .notEqual
  · subst unequal
    exact Nat.le_refl 2
  · rw [nesting_comparison unequal]
    exact Nat.zero_le 2

mutual

/-- An array of the document opens at most two levels of the expression. -/
theorem nesting_le_of_ofDraft {levels : Nat} {draft : Draft} {filter : Filter}
    (read : ofDraft levels draft = .ok filter) : filter.nesting ≤ 2 * levels := by
  cases draft with
  | array items =>
    rw [ofDraft] at read
    split at read
    · cases read
    · have inside := nesting_le_of_ofItems read
      omega
  | _ => cases read

theorem nesting_le_of_ofItems {levels : Nat} {items : Items} {filter : Filter}
    (read : ofItems levels items = .ok filter) : filter.nesting ≤ 2 + 2 * levels := by
  cases items with
  | item first others =>
    obtain ⟨word, -, compared | combined | ⟨-, negated⟩⟩ := ofItems_item_cases read
    · obtain ⟨operator, -, compared⟩ := compared
      obtain ⟨_, _, property, _, value, -, -, -, -, rfl⟩ := comparisonOfItems_cases compared
      exact Nat.le_add_right_of_le (nesting_comparison_le operator property value)
    · obtain ⟨operator, operands, -, inside, -, rfl⟩ := combined
      have each := operandNesting_le_iff.mpr (nesting_le_of_operandsOfItems inside)
      rw [nesting]
      omega
    · exact nesting_le_of_negationOfItems negated
  | _ => cases read

theorem nesting_le_of_operandsOfItems {levels : Nat} {items : Items} {filters : List Filter}
    (read : operandsOfItems levels items = .ok filters) :
    ∀ filter ∈ filters, filter.nesting ≤ 2 * levels := by
  cases items with
  | closed =>
    cases read
    exact fun _ member => nomatch member
  | broken fault => cases read
  | item first others =>
    rw [operandsOfItems] at read
    obtain ⟨operand, here, read⟩ := bind_eq_ok_iff.mp read
    obtain ⟨operands, there, read⟩ := bind_eq_ok_iff.mp read
    cases read
    exact List.forall_mem_cons.mpr ⟨nesting_le_of_ofDraft here, nesting_le_of_operandsOfItems there⟩

theorem nesting_le_of_negationOfItems {levels : Nat} {items : Items} {filter : Filter}
    (read : negationOfItems levels items = .ok filter) : filter.nesting ≤ 2 + 2 * levels := by
  cases items with
  | item first others =>
    obtain ⟨operand, -, inside, rfl⟩ := negationOfItems_cases read
    have below := nesting_le_of_ofDraft inside
    rw [nesting]
    omega
  | _ => cases read

end

/-- A filter from a document is expressible if its names and operators are. -/
theorem isExpressible_of_ofDraft {levels : Nat} {draft : Draft} {filter : Filter}
    (read : ofDraft levels draft = .ok filter) (readable : filter.every isReadable)
    (enclosed : filter.every isEnclosed) (named : filter.every Expression.isNamed) :
    filter.isExpressible := by
  have decoded := isDecoded_of_ofDraft read
  simp only [isDecoded, Bool.and_eq_true] at decoded
  have delimited := every_isDelimited_iff.mpr ⟨enclosed, decoded.2⟩
  simp only [isExpressible, Bool.and_eq_true]
  exact ⟨⟨⟨decoded.1, readable⟩, delimited⟩, named⟩

theorem exists_render_of_isExpressible {filter : Filter} (expressible : filter.isExpressible) :
    ∃ expression, Expression.render filter = .ok expression := by
  simp only [isExpressible, Bool.and_eq_true] at expressible
  exact Expression.exists_render_iff.mpr expressible.1.1.1

/-- The expression of a filter that a document gives is read back as the filter with its
inequalities negated equalities, and it nests at most two hundred and fifty-four levels deep. The
filter must hold no pattern match, and its names have to be visible and must not close the brackets
around them. -/
theorem parse_render_of_isGiven {text : String} {filter : Filter} (given : IsGiven text filter)
    (readable : filter.every isReadable) (enclosed : filter.every isEnclosed)
    (named : filter.every Expression.isNamed) :
    filter.nesting ≤ 254 ∧ ∃ expression, Expression.render filter = .ok expression ∧
      Expression.parse expression = .ok filter.desugared ∧
      ∀ position, Expression.parse expression ≠ .error (.malformed position .tooDeep) := by
  obtain ⟨levels, allowed, draft, read⟩ := given.exists_ofDraft
  have nested : filter.nesting ≤ 2 * 127 :=
    Nat.le_trans (nesting_le_of_ofDraft read) (Nat.mul_le_mul_left 2 allowed)
  have expressible := isExpressible_of_ofDraft read readable enclosed named
  obtain ⟨expression, rendered⟩ := exists_render_of_isExpressible expressible
  have parsed := Expression.parse_of_isExpressible rendered expressible
    (Nat.le_trans nested (by decide))
  exact ⟨nested, expression, rendered, parsed, fun position refused => by
    rw [parsed] at refused
    cases refused⟩

/-- A hundred and twenty-six negations of an inequality, as deep as a document can be. -/
def deepest : Filter := negated 126 (.comparison .notEqual "a" .null)

theorem numbers_toJson_negated (count : Nat) (filter : Filter) :
    (negated count filter).toJson.numbers = filter.toJson.numbers := by
  induction count with
  | zero => rfl
  | succ count ih => simp [negated, toJson, Value.numbers, Value.itemNumbers, ih]

theorem depth_toJson_negated (count : Nat) (filter : Filter) :
    (negated count filter).toJson.depth = count + filter.toJson.depth := by
  induction count with
  | zero => exact (Nat.zero_add _).symm
  | succ count ih =>
    simp only [negated, toJson, Value.depth, Value.itemDepth, ih]
    omega

theorem parse_render_deepest :
    IsGiven deepest.toJson.pretty deepest ∧ deepest.every isReadable ∧ deepest.every isEnclosed ∧
      deepest.every Expression.isNamed ∧ deepest.nesting = 254 ∧
      ∃ expression, Expression.render deepest = .ok expression ∧
        Expression.parse expression = .ok (negated 127 (.comparison .equal "a" .null)) := by
  have fits : deepest.toJson.Fits levelLimit :=
    ⟨by rw [deepest, numbers_toJson_negated]; decide, by rw [deepest, depth_toJson_negated]; decide⟩
  have paired : deepest.isPaired := isPaired_negated ..
  have read := deepest.ofDraft_of_complete paired (Value.complete_draft_of_fits fits)
  have given : IsGiven deepest.toJson.pretty deepest := .alone (decode_pretty read)
  have readable : deepest.every isReadable := every_negated ..
  have enclosed : deepest.every isEnclosed := every_negated ..
  have named : deepest.every Expression.isNamed := every_negated ..
  obtain ⟨-, expression, rendered, parsed, -⟩ :=
    parse_render_of_isGiven given readable enclosed named
  rw [deepest, desugared_negated] at parsed
  exact ⟨given, readable, enclosed, named, nesting_negated .., expression, rendered, parsed⟩

end Filter

end CartoStyle
