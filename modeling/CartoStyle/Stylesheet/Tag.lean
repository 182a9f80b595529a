import CartoStyle.Vocabulary

/-!
# Names of elements

A stylesheet is a `Map` or a `Style`. A style holds rules, and a rule holds its filter, the bounds
of its scale and the elements that draw, of which there are seven kinds.
-/

namespace CartoStyle.Stylesheet

/-- The elements that draw. -/
inductive DrawingTag where
  | polygon
  | polygonPattern
  | line
  | linePattern
  | markers
  | raster
  | text
deriving DecidableEq, Repr, Inhabited

instance : Vocabulary DrawingTag where
  all := [.polygon, .polygonPattern, .line, .linePattern, .markers, .raster, .text]
  keyword
    | .polygon => "PolygonSymbolizer"
    | .polygonPattern => "PolygonPatternSymbolizer"
    | .line => "LineSymbolizer"
    | .linePattern => "LinePatternSymbolizer"
    | .markers => "MarkersSymbolizer"
    | .raster => "RasterSymbolizer"
    | .text => "TextSymbolizer"
  mem_all tag := by cases tag <;> decide
  keyword_injective {a b} := by cases a <;> cases b <;> decide

def mapTag : String := "Map"

def styleTag : String := "Style"

def ruleTag : String := "Rule"

def filterTag : String := "Filter"

def minScaleTag : String := "MinScaleDenominator"

def maxScaleTag : String := "MaxScaleDenominator"

/-- The children of a rule that do not draw. -/
def conditionTags : List String := [filterTag, minScaleTag, maxScaleTag]

/-- The attribute that names a style or a rule. -/
def nameAttribute : String := "name"

/-- The attribute that may hold the filter of a rule. -/
def filterAttribute : String := "filter"

/-- The attribute that points at an image. -/
def fileAttribute : String := "file"

end CartoStyle.Stylesheet
