import CartoStyle.Binary64.Basic
import CartoStyle.Filter.Operator

/-!
# Filters

A filter decides which features a rule draws. It is a comparison of a property with a value, a
combination of filters, or the negation of one.
-/

namespace CartoStyle

/-- The value on the right of a comparison. -/
inductive FilterValue where
  | null
  | number (value : Binary64)
  | text (value : String)
deriving DecidableEq

/-- A condition on the properties of a feature. -/
inductive Filter where
  | comparison (operator : ComparisonOperator) (property : String) (value : FilterValue)
  | combination (operator : CombinationOperator) (operands : List Filter)
  | negation (operand : Filter)

instance : Inhabited Filter := ⟨.comparison .equal "" .null⟩

/-- Equal values, numbers being compared as numbers. -/
def FilterValue.sameValue : FilterValue → FilterValue → Bool
  | .null, .null => true
  | .number x, .number y => x.sameNumber y
  | .text s, .text t => s == t
  | _, _ => false

namespace Filter

mutual

/-- Filters of one shape with equal values; a filter that holds `nan` equals nothing. -/
def sameFilter : Filter → Filter → Bool
  | .comparison o p v, .comparison o' p' v' => o == o' && p == p' && v.sameValue v'
  | .combination o fs, .combination o' gs => o == o' && sameFilters fs gs
  | .negation f, .negation g => sameFilter f g
  | _, _ => false

/-- `sameFilter` along two lists of one length. -/
def sameFilters : List Filter → List Filter → Bool
  | [], [] => true
  | f :: fs, g :: gs => sameFilter f g && sameFilters fs gs
  | _, _ => false

end

/-- A filter under a number of negations. -/
def negated : Nat → Filter → Filter
  | 0, f => f
  | n + 1, f => .negation (negated n f)

/-- Filters joined by an operator; one filter alone needs none. -/
def joined (operator : CombinationOperator) : List Filter → Filter
  | [f] => f
  | fs => .combination operator fs

end Filter

end CartoStyle
