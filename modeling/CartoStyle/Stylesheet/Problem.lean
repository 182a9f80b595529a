import CartoStyle.Filter.Expression.Problem

/-!
# What can be wrong with a stylesheet

A problem inside a rule or a symbolizer says in which one; `Problem.innermost` is the problem
itself.
-/

namespace CartoStyle.Stylesheet

inductive Problem where
  /-- A mark that no image stands for. -/
  | unsupportedSymbol (name : String)
  /-- An element where one of another name must stand. -/
  | unrecognizedElement (name : String)
  /-- An attribute whose value cannot be interpreted. -/
  | invalidAttribute (element attributeName value : String)
  /-- A bound of a scale that is no number. -/
  | invalidScale (element value : String)
  | missingElement (name : String)
  | filter (cause : Expression.Problem)
  /-- A text that is no document. -/
  | markup
  | inRule (index : Nat) (name : Option String) (cause : Problem)
  | inSymbolizer (index : Nat) (kind : String) (cause : Problem)
deriving DecidableEq

namespace Problem

def message : Problem → String
  | .unsupportedSymbol name => s!"well-known mark '{name}' has no Mapnik glyph"
  | .unrecognizedElement name => s!"unrecognized symbolizer element <{name}>"
  | .invalidAttribute element attributeName value =>
    s!"invalid value '{value}' for attribute '{attributeName}' on <{element}>"
  | .invalidScale element value => s!"<{element}> must contain a number, found '{value}'"
  | .missingElement name => s!"expected a <{name}> element"
  | .filter cause => s!"filter error: {cause.message}"
  | .markup => "markup error: the document is not well formed"
  | .inRule index none cause => s!"rule {index}: {cause.message}"
  | .inRule index (some name) cause => s!"rule {index} '{name}': {cause.message}"
  | .inSymbolizer index kind cause => s!"symbolizer {index} ({kind}): {cause.message}"

/-- A problem without the places where it was found. -/
def innermost : Problem → Problem
  | .inRule _ _ cause => cause.innermost
  | .inSymbolizer _ _ cause => cause.innermost
  | problem => problem

end Problem

end CartoStyle.Stylesheet
