import CartoStyle.Filter.Basic
import CartoStyle.Style.Symbolizer

/-!
# Styles

A style is a named list of rules, which apply in their order. A rule draws the features that pass
its filter with its symbolizers, as long as the scale of the map is within its range.
-/

namespace CartoStyle

/-- The range of scale denominators within which a rule applies. A bound that is absent is none. -/
structure ScaleRange where
  min : Option Binary64 := none
  max : Option Binary64 := none
deriving DecidableEq, Inhabited

def ScaleRange.isUnbounded (range : ScaleRange) : Bool := range.min.isNone && range.max.isNone

structure Rule where
  name : Option String := none
  filter : Option Filter := none
  scaleDenominator : Option ScaleRange := none
  symbolizers : List Symbolizer := []
deriving Inhabited

structure Style where
  name : String := ""
  rules : List Rule := []
deriving Inhabited

end CartoStyle
