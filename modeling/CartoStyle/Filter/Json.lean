import CartoStyle.Filter.Basic
import CartoStyle.Json.Decode

/-!
# Filters in JSON

A filter is an array that begins with its operator, such as `["==", "name", "value"]`: a comparison
has two more items, a combination its operands, of which it needs two, and a negation, led by `"!"`,
its operand.
-/

namespace CartoStyle

open Json

/-- The value of a comparison in JSON. -/
def FilterValue.toJson : FilterValue → Value
  | .null => .null
  | .number value => .number (.fraction value)
  | .text value => .string value

/-- The value of a comparison from JSON. -/
def FilterValue.ofJson : Value → Except Mismatch FilterValue
  | .null => .ok .null
  | .number value => .ok (.number value.value)
  | .string value => .ok (.text value)
  | _ => .error (.noAlternative "FilterValue")

namespace Filter

mutual

/-- The array of a filter. -/
def toJson : Filter → Value
  | .comparison operator property value =>
    .array [.string operator.symbol, .string property, value.toJson]
  | .combination operator operands => .array (.string operator.symbol :: toJsonList operands)
  | .negation operand => .array [.string negationSymbol, toJson operand]

/-- The arrays of some filters. -/
def toJsonList : List Filter → List Value
  | [] => []
  | filter :: others => toJson filter :: toJsonList others

end

/-- What a message calls a filter that is missing. -/
def expected : String := "an operator-first filter array such as [\"==\", \"name\", \"value\"]"

/-- The next item of an array that has already given some items. -/
def nextItem (given : Nat) : Items → Except Problem (Draft × Items)
  | .closed => .error (.mismatch (.wrongLength given expected))
  | .broken fault => .error (.fault fault)
  | .item first others => .ok (first, others)

/-- The end of an array. An item in its place is skipped before it is refused. -/
def noMoreItems (length : Nat) (description : String) : Items → Except Problem Unit
  | .closed => .ok ()
  | .broken fault => .error (.fault fault)
  | .item first _ => do
    first.skip
    .error (.mismatch (.wrongLength length description))

/-- A comparison whose operator has been read. -/
def comparisonOfItems (levels : Nat) (operator : ComparisonOperator) (items : Items) :
    Except Problem Filter := do
  let (property, items) ← nextItem 1 items
  let property ← property.text
  let (value, items) ← nextItem 2 items
  let value ← value.complete levels
  match FilterValue.ofJson value with
  | .error cause => .error (.mismatch cause)
  | .ok value =>
    noMoreItems 4 "a comparison of exactly three elements" items
    return .comparison operator property value

mutual

/-- The filter of a draft. -/
def ofDraft (levels : Nat) : Draft → Except Problem Filter
  | .array items => if levels = 0 then .error tooDeep else ofItems (levels - 1) items
  | draft => .error (draft.mismatch expected)

/-- The filter of an array. -/
def ofItems (levels : Nat) : Items → Except Problem Filter
  | .closed => .error (.mismatch (.wrongLength 0 expected))
  | .broken fault => .error (.fault fault)
  | .item first others => do
    let word ← first.text
    match Vocabulary.ofKeyword? (α := ComparisonOperator) word with
    | some operator => comparisonOfItems levels operator others
    | none =>
      match Vocabulary.ofKeyword? (α := CombinationOperator) word with
      | some operator =>
        let operands ← operandsOfItems levels others
        if operands.length < 2 then
          .error (.mismatch
            (.wrongLength (operands.length + 1) "a combination of at least two filters"))
        else return .combination operator operands
      | none =>
        if word = negationSymbol then negationOfItems levels others
        else .error (.mismatch (.unknownOperator word))

/-- The operands of a combination. -/
def operandsOfItems (levels : Nat) : Items → Except Problem (List Filter)
  | .closed => .ok []
  | .broken fault => .error (.fault fault)
  | .item first others => do
    let operand ← ofDraft levels first
    let operands ← operandsOfItems levels others
    return operand :: operands

/-- A negation whose operator has been read. -/
def negationOfItems (levels : Nat) : Items → Except Problem Filter
  | .closed => .error (.mismatch (.wrongLength 1 expected))
  | .broken fault => .error (.fault fault)
  | .item first others => do
    let operand ← ofDraft levels first
    noMoreItems 3 "a negation of exactly one filter" others
    return .negation operand

end

end Filter

end CartoStyle
