import CartoStyle.Filter.Expression.Problem

/-!
# From filters to expressions

Every operand of a combination and of a negation stands in parentheses. An inequality is written as
the negation of an equality, because the renderer that evaluates the expression does not compare
absent values by `!=` reliably.
-/

namespace CartoStyle.Expression

/-- A text in single quotes, with a backslash before each quote and each backslash. -/
def quoted (text : List Char) : List Char :=
  '\'' :: text.flatMap (fun c => if c == '\'' || c == '\\' then ['\\', c] else [c]) ++ ['\'']

/-- The value of a comparison. -/
def valueText : FilterValue → List Char
  | .null => "null".toList
  | .number value => value.chars .plain
  | .text content => quoted content.toList

/-- A comparison. -/
def comparisonText (operator : ComparisonOperator) (property : String) (value : FilterValue) :
    List Char :=
  '[' :: property.toList ++ "] ".toList ++ operator.symbol.toList ++ ' ' :: valueText value

/-- A part of an expression in parentheses. -/
def grouped (part : List Char) : List Char := '(' :: part ++ [')']

/-- The negation of a part of an expression. -/
def negatedText (part : List Char) : List Char := "not ".toList ++ grouped part

mutual

/-- The characters of a filter's expression. -/
def chars : Filter → Except Problem (List Char)
  | .comparison operator property value =>
    .ok (if operator = .notEqual then negatedText (comparisonText .equal property value)
      else comparisonText operator property value)
  | .combination operator operands =>
    if operands.length < 2 then .error (.arity operator operands.length)
    else operandChars operator operands
  | .negation operand =>
    match chars operand with
    | .ok part => .ok (negatedText part)
    | .error problem => .error problem

/-- The operands of a combination, its symbol between them. -/
def operandChars (operator : CombinationOperator) : List Filter → Except Problem (List Char)
  | [] => .ok []
  | operand :: others =>
    match chars operand with
    | .error problem => .error problem
    | .ok part =>
      match operandChars operator others with
      | .error problem => .error problem
      | .ok [] => .ok (grouped part)
      | .ok rest => .ok (grouped part ++ ' ' :: operator.symbol.toList ++ ' ' :: rest)

end

/-- The expression of a filter. -/
def render (filter : Filter) : Except Problem String := (chars filter).map String.ofList

end CartoStyle.Expression
