import CartoStyle.Filter.Expression.Token

/-!
# What can be wrong with a filter expression

Every problem points at the byte where it was noticed, except that of a filter which cannot be
written down as an expression at all.
-/

namespace CartoStyle.Expression

/-- What may stand at a place of an expression. -/
inductive Wanted where
  | property
  | comparison
  | value
  | closing
deriving DecidableEq, Repr

def Wanted.shown : Wanted → String
  | .property => "a property such as [name]"
  | .comparison => "a comparison operator"
  | .value => "a value"
  | .closing => "')'"

/-- How many groups and negations may be open at once. -/
def depthLimit : Nat := 256

/-- Why an expression is malformed. -/
inductive Malformation where
  /-- A number has an exponent mark without digits. -/
  | unreadable
  | unterminatedText
  | unexpectedCharacter (found : Char)
  /-- A token is not what its place calls for; none stands for the end of the expression. -/
  | unexpected (wanted : Wanted) (found : Option Token)
  /-- A token follows a complete expression. -/
  | trailing (found : Token)
  | tooDeep
deriving DecidableEq

def Malformation.message : Malformation → String
  | .unreadable => "unreadable expression"
  | .unterminatedText => "unterminated string literal"
  | .unexpectedCharacter found => s!"unexpected character '{found}'"
  | .unexpected wanted none => s!"expected {wanted.shown}, found end of expression"
  | .unexpected wanted (some found) => s!"expected {wanted.shown}, found {found.shown}"
  | .trailing found => s!"unexpected {found.shown} after a complete expression"
  | .tooDeep => s!"expression nests deeper than {depthLimit} levels"

/-- Why an expression has no filter, or a filter no expression. -/
inductive Problem where
  /-- An operator that expressions hold but filters cannot be read from. -/
  | unsupportedOperator (operator : ComparisonOperator) (position : Nat)
  | malformed (position : Nat) (cause : Malformation)
  /-- A combination of fewer than two filters. -/
  | arity (operator : CombinationOperator) (count : Nat)
deriving DecidableEq

def Problem.message : Problem → String
  | .unsupportedOperator operator position =>
    s!"operator '{operator.symbol}' at position {position} has no filter equivalent"
  | .malformed position cause =>
    s!"malformed filter expression at position {position}: {cause.message}"
  | .arity operator count =>
    s!"'{operator.symbol}' combines at least two filters, got {count}"

end CartoStyle.Expression
