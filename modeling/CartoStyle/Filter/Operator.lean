import CartoStyle.Vocabulary

/-!
# Operators of filters

Comparison operators set a property against a value, combination operators join filters. Their
symbols are the same in style documents and in expressions. An expression may also spell some of
them in other ways, which `canonicalSpelling` undoes, and it cannot hold a pattern match: `matching`
is written but not read back.
-/

namespace CartoStyle

/-- How a property is set against a value. -/
inductive ComparisonOperator where
  | equal
  | notEqual
  /-- The property matches a pattern. -/
  | matching
  | lessThan
  | lessThanOrEqual
  | greaterThan
  | greaterThanOrEqual
  | modulo
deriving DecidableEq, Repr

/-- How filters are joined. -/
inductive CombinationOperator where
  | and
  | or
deriving DecidableEq, Repr

namespace ComparisonOperator

def symbol : ComparisonOperator → String
  | equal => "=="
  | notEqual => "!="
  | matching => "*="
  | lessThan => "<"
  | lessThanOrEqual => "<="
  | greaterThan => ">"
  | greaterThanOrEqual => ">="
  | modulo => "%"

instance : Vocabulary ComparisonOperator where
  all := [equal, notEqual, matching, lessThan, lessThanOrEqual, greaterThan, greaterThanOrEqual,
    modulo]
  keyword := symbol
  mem_all a := by cases a <;> decide
  keyword_injective {a b} := by cases a <;> cases b <;> decide

/-- Every operator but the pattern match can be read back from an expression. -/
def isReadable (operator : ComparisonOperator) : Bool := operator != matching

end ComparisonOperator

namespace CombinationOperator

def symbol : CombinationOperator → String
  | and => "&&"
  | or => "||"

instance : Vocabulary CombinationOperator where
  all := [and, or]
  keyword := symbol
  mem_all a := by cases a <;> decide
  keyword_injective {a b} := by cases a <;> cases b <;> decide

end CombinationOperator

/-- The symbol of negation. -/
def negationSymbol : String := "!"

/-- Other spellings that an expression may use, with the symbols they stand for. -/
def spellings : List (String × String) :=
  [("=", "=="), ("<>", "!="), ("and", "&&"), ("or", "||"), ("not", negationSymbol)]

/-- The letters of a word in lower case; letters outside ASCII stay. -/
def lowercase (word : String) : String := String.ofList (word.toList.map Char.toLower)

/-- The symbol that a spelling stands for, in any case of letters; any other text stays as it is. -/
def canonicalSpelling (spelling : String) : String :=
  match spellings.find? fun entry => entry.1 == lowercase spelling with
  | some (_, symbol) => symbol
  | none => spelling

end CartoStyle
