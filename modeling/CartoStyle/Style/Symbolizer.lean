import CartoStyle.Binary64.Basic
import CartoStyle.Style.Keyword

/-!
# Symbolizers

A symbolizer says how a feature is drawn. Every part of it is optional; where a part is absent, the
renderer chooses.
-/

namespace CartoStyle

/-- A symbol with a name that every renderer knows. -/
structure Mark where
  wellKnownName : Option String := none
  color : Option String := none
  fillOpacity : Option Binary64 := none
  strokeColor : Option String := none
  strokeWidth : Option Binary64 := none
  strokeOpacity : Option Binary64 := none
  radius : Option Binary64 := none
  avoidEdges : Option Bool := none
  rotate : Option Binary64 := none
  visibility : Option Bool := none
deriving DecidableEq, Inhabited

/-- An image. -/
structure Icon where
  image : Option String := none
  color : Option String := none
  opacity : Option Binary64 := none
  size : Option Binary64 := none
  allowOverlap : Option Bool := none
  avoidEdges : Option Bool := none
  rotate : Option Binary64 := none
  visibility : Option Bool := none
deriving DecidableEq, Inhabited

/-- What a pattern repeats. -/
inductive Graphic where
  | mark (symbol : Mark)
  | icon (image : Icon)
deriving DecidableEq, Inhabited

/-- An area, which may have an outline. -/
structure Fill where
  color : Option String := none
  opacity : Option Binary64 := none
  antialias : Option Bool := none
  graphicFill : Option Graphic := none
  outlineColor : Option String := none
  outlineOpacity : Option Binary64 := none
  outlineWidth : Option Binary64 := none
  outlineDasharray : Option (List Binary64) := none
  visibility : Option Bool := none
deriving DecidableEq, Inhabited

/-- A line, which may follow a graphic. -/
structure Line where
  color : Option String := none
  opacity : Option Binary64 := none
  width : Option Binary64 := none
  cap : Option LineCap := none
  join : Option LineJoin := none
  dasharray : Option (List Binary64) := none
  graphicStroke : Option Graphic := none
  graphicFill : Option Graphic := none
  visibility : Option Bool := none
deriving DecidableEq, Inhabited

/-- An image that covers the map. -/
structure Raster where
  opacity : Option Binary64 := none
  visibility : Option Bool := none
deriving DecidableEq, Inhabited

/-- A text taken from a property of the feature. -/
structure Label where
  /-- The property that holds the text. -/
  property : Option String := none
  color : Option String := none
  opacity : Option Binary64 := none
  /-- Names of font families, the preferred one first. -/
  font : Option (List String) := none
  size : Option Binary64 := none
  haloColor : Option String := none
  haloWidth : Option Binary64 := none
  justify : Option Justification := none
  letterSpacing : Option Binary64 := none
  lineHeight : Option Binary64 := none
  padding : Option Binary64 := none
  transform : Option LetterCase := none
  maxAngle : Option Binary64 := none
  maxWidth : Option Binary64 := none
  rotate : Option Binary64 := none
  /-- How far the label is moved to the right and down. -/
  offset : Option (Binary64 × Binary64) := none
  anchor : Option Anchor := none
  allowOverlap : Option Bool := none
  avoidEdges : Option Bool := none
  visibility : Option Bool := none
deriving DecidableEq, Inhabited

/-- Whether any part of an outline is given. -/
def Fill.hasOutline (fill : Fill) : Bool :=
  fill.outlineColor.isSome || fill.outlineOpacity.isSome || fill.outlineWidth.isSome ||
    fill.outlineDasharray.isSome

/-- How a feature is drawn. -/
inductive Symbolizer where
  | fill (area : Fill)
  | line (stroke : Line)
  | mark (symbol : Mark)
  | icon (image : Icon)
  | raster (cover : Raster)
  | text (label : Label)
deriving DecidableEq, Inhabited

namespace Symbolizer

def kind : Symbolizer → SymbolizerKind
  | .fill _ => .fill
  | .line _ => .line
  | .mark _ => .mark
  | .icon _ => .icon
  | .raster _ => .raster
  | .text _ => .text

/-- Whether a symbolizer is said to be visible. -/
def visibility : Symbolizer → Option Bool
  | .fill area => area.visibility
  | .line stroke => stroke.visibility
  | .mark symbol => symbol.visibility
  | .icon image => image.visibility
  | .raster cover => cover.visibility
  | .text label => label.visibility

end Symbolizer

end CartoStyle
