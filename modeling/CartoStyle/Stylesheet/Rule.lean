import CartoStyle.Filter.Expression.Parse
import CartoStyle.Filter.Expression.Render
import CartoStyle.Style.Basic
import CartoStyle.Stylesheet.Drawing

/-!
# Rules as elements

A rule is written with the bounds of its scale first, then its filter as an expression, then the
elements that draw. When it is read, the children that are conditions may stand anywhere; of several
of the same name the first counts. A rule without a child for its filter may have the filter as an
attribute.
-/

namespace CartoStyle

open Stylesheet
open Xml (Element)

namespace ScaleRange

/-- A bound as an element. -/
def boundElement (tag : String) (bound : Binary64) : Element :=
  { name := tag, text := some bound.text }

/-- The bounds that are given, the upper one first. -/
def elements (range : ScaleRange) : List Element :=
  (range.max.map (boundElement maxScaleTag)).toList ++
    (range.min.map (boundElement minScaleTag)).toList

/-- A bound of a rule. -/
def boundOf (rule : Element) (tag : String) : Except Problem (Option Binary64) :=
  match rule.firstChild? tag with
  | none => .ok none
  | some child =>
    let text := child.text.getD ""
    match numberOfText? (Text.trim text.toList) with
    | some bound => .ok (some bound)
    | none => .error (.invalidScale tag text)

/-- The range of a rule, if it has a bound. -/
def ofRule (rule : Element) : Except Problem (Option ScaleRange) := do
  let min ← boundOf rule minScaleTag
  let max ← boundOf rule maxScaleTag
  let range : ScaleRange := { min, max }
  return if range.isUnbounded then none else some range

end ScaleRange

namespace Rule

/-- The filter of a rule as an element. -/
def filterElement (filter : Filter) : Except Problem Element :=
  match Expression.render filter with
  | .ok text => .ok { name := filterTag, text := some text }
  | .error cause => .error (.filter cause)

/-- The elements that draw symbolizers; a problem tells the place of its symbolizer, counted from
`index`. -/
def drawings (glyphs : Glyphs) (index : Nat) : List Symbolizer → Except Problem (List Element)
  | [] => .ok []
  | symbolizer :: others => do
    let first ← (symbolizer.elements glyphs).mapError
      (.inSymbolizer index (keyword symbolizer.kind))
    let rest ← drawings glyphs (index + 1) others
    return first ++ rest

/-- The element of a rule. -/
def element (glyphs : Glyphs) (rule : Rule) : Except Problem Element := do
  let range := rule.scaleDenominator.elim [] ScaleRange.elements
  let filter ← match rule.filter with
    | some filter => (filterElement filter).map fun element => [element]
    | none => .ok []
  let drawings ← drawings glyphs 0 rule.symbolizers
  return {
    name := ruleTag
    attributes := match rule.name with
      | some name => Dictionary.empty.insert nameAttribute (.text name)
      | none => .empty
    children := range ++ filter ++ drawings }

/-- The text of the filter of a rule: that of its first child for a filter or, without one, an
attribute. -/
def filterText? (rule : Element) : Option String :=
  match rule.firstChild? filterTag with
  | some child => child.text
  | none => rule.attributeText? filterAttribute

/-- The filter that a text expresses; a blank text expresses none. -/
def filterOfText (text : String) : Except Problem (Option Filter) :=
  let text := Text.trimmed text
  if text.isEmpty then .ok none
  else match Expression.parse text with
    | .ok filter => .ok (some filter)
    | .error cause => .error (.filter cause)

/-- The rule of an element. -/
def ofElement (rule : Element) : Traced Rule := do
  if 1 < (rule.childrenNamed filterTag).length then .note .repeatedFilter
  let filter ← .ofExcept (match filterText? rule with
    | some text => filterOfText text
    | none => .ok none)
  let symbolizers ← Symbolizer.ofElements
    (rule.children.filter fun child => !conditionTags.contains child.name)
  let scaleDenominator ← .ofExcept (ScaleRange.ofRule rule)
  return { name := rule.attributeText? nameAttribute, filter, scaleDenominator, symbolizers }

end Rule

end CartoStyle
