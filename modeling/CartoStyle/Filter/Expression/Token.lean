import CartoStyle.Decimal.Form
import CartoStyle.Filter.Basic

/-!
# Tokens of filter expressions

An expression such as `[class] = 'road' and not [lanes] < 2` is a row of tokens. A token is kept
with the byte at which it starts, so that an error can point at it.
-/

namespace CartoStyle.Expression

/-- The smallest parts of an expression. -/
inductive Token where
  /-- A property in brackets. -/
  | property (name : String)
  /-- A literal in quotes, with its escapes resolved. -/
  | text (content : String)
  | number (value : Binary64)
  /-- A bare word that is no operator, `null` among them. -/
  | word (content : String)
  | comparison (operator : ComparisonOperator)
  | combination (operator : CombinationOperator)
  | negation
  | opening
  | closing
deriving DecidableEq

/-- How an error message names a token. -/
def Token.shown : Token → String
  | .property name => s!"'[{name}]'"
  | .text content => s!"literal '{content}'"
  | .number value => s!"number {value.text}"
  | .word content => s!"'{content}'"
  | .comparison operator => s!"'{operator.symbol}'"
  | .combination operator => s!"'{operator.symbol}'"
  | .negation => "'not'"
  | .opening => "'('"
  | .closing => "')'"

/-- The value that a token gives a comparison: a literal, a number or a word, of which `null` is the
absent value. -/
def Token.value? : Token → Option FilterValue
  | .text content => some (.text content)
  | .number value => some (.number value)
  | .word content => some (if content = "null" then .null else .text content)
  | _ => none

/-- A token and the byte at which it starts. -/
structure Placed where
  token : Token
  position : Nat
deriving DecidableEq

end CartoStyle.Expression
