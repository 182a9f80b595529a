import CartoStyle.Stylesheet.AttrField
import CartoStyle.Style.Symbolizer

/-!
# The attributes of symbolizers

One table for each record. Some parts have more than one attribute: a mark and an icon are as wide
as they are high, a label that is wrapped or rotated carries a flag of its own, and its offset has
two coordinates.
-/

namespace CartoStyle

open Stylesheet

def Fill.table : List (AttrField Fill) := [
  .of "fill" .text Fill.color fun v f => { f with color := some v },
  .of "fill-opacity" .number Fill.opacity fun v f => { f with opacity := some v },
  .of "gamma" .switch Fill.antialias fun v f => { f with antialias := some v }]

/-- The attributes of the line that draws an outline. -/
def Fill.outlineTable : List (AttrField Fill) := [
  .of "stroke" .text Fill.outlineColor fun v f => { f with outlineColor := some v },
  .of "stroke-opacity" .number Fill.outlineOpacity fun v f => { f with outlineOpacity := some v },
  .of "stroke-width" .number Fill.outlineWidth fun v f => { f with outlineWidth := some v },
  .of "stroke-dasharray" .numbers Fill.outlineDasharray
    fun v f => { f with outlineDasharray := some v }]

def Line.table : List (AttrField Line) := [
  .of "stroke" .text Line.color fun v l => { l with color := some v },
  .of "stroke-opacity" .number Line.opacity fun v l => { l with opacity := some v },
  .of "stroke-width" .number Line.width fun v l => { l with width := some v },
  .of "stroke-linecap" (.keyword LineCap) Line.cap fun v l => { l with cap := some v },
  .of "stroke-linejoin" (.keyword LineJoin) Line.join fun v l => { l with join := some v },
  .of "stroke-dasharray" .numbers Line.dasharray fun v l => { l with dasharray := some v }]

def Mark.table : List (AttrField Mark) := [
  .of "opacity" .number Mark.fillOpacity fun v m => { m with fillOpacity := some v },
  .of "stroke" .text Mark.strokeColor fun v m => { m with strokeColor := some v },
  .of "stroke-width" .number Mark.strokeWidth fun v m => { m with strokeWidth := some v },
  .of "stroke-opacity" .number Mark.strokeOpacity fun v m => { m with strokeOpacity := some v },
  .of "width" .number Mark.radius fun v m => { m with radius := some v },
  .of "height" .number Mark.radius fun v m => { m with radius := some (m.radius.getD v) },
  .of "fill" .text Mark.color fun v m => { m with color := some v },
  .of "avoid-edges" .flag Mark.avoidEdges fun v m => { m with avoidEdges := some v },
  .of "transform" .rotation Mark.rotate fun v m => { m with rotate := some v }]

def Icon.table : List (AttrField Icon) := [
  .of "opacity" .number Icon.opacity fun v i => { i with opacity := some v },
  .of "width" .number Icon.size fun v i => { i with size := some v },
  .of "height" .number Icon.size fun v i => { i with size := some (i.size.getD v) },
  .of "fill" .text Icon.color fun v i => { i with color := some v },
  .of "allow-overlap" .flag Icon.allowOverlap fun v i => { i with allowOverlap := some v },
  .of "avoid-edges" .flag Icon.avoidEdges fun v i => { i with avoidEdges := some v },
  .of "transform" .rotation Icon.rotate fun v i => { i with rotate := some v },
  .of fileAttribute .text Icon.image fun v i => { i with image := some v }]

def Raster.table : List (AttrField Raster) := [
  .of "opacity" .number Raster.opacity fun v r => { r with opacity := some v }]

/-- A flag that goes with a part of a label; read, it must be a truth value and nothing more. -/
def Label.companion {α : Type} (attributeName : String) (part : Label → Option α) :
    AttrField Label :=
  .of attributeName .flag (fun label => (part label).map fun _ => true) fun _ label => label

def Label.table : List (AttrField Label) := [
  .of "opacity" .number Label.opacity fun v t => { t with opacity := some v },
  .of "allow-overlap" .flag Label.allowOverlap fun v t => { t with allowOverlap := some v },
  .of "avoid-edges" .flag Label.avoidEdges fun v t => { t with avoidEdges := some v },
  .of "fill" .text Label.color fun v t => { t with color := some v },
  .of "face-name" .names Label.font fun v t => { t with font := some v },
  .of "size" .number Label.size fun v t => { t with size := some v },
  .of "halo-fill" .text Label.haloColor fun v t => { t with haloColor := some v },
  .of "halo-radius" .number Label.haloWidth fun v t => { t with haloWidth := some v },
  .of "justify-alignment" (.keyword Justification) Label.justify
    fun v t => { t with justify := some v },
  .of "character-spacing" .number Label.letterSpacing fun v t => { t with letterSpacing := some v },
  .of "line-spacing" .number Label.lineHeight fun v t => { t with lineHeight := some v },
  .of "margin" .number Label.padding fun v t => { t with padding := some v },
  .of "text-transform" (.keyword LetterCase) Label.transform
    fun v t => { t with transform := some v },
  .of "max-char-angle-delta" .number Label.maxAngle fun v t => { t with maxAngle := some v },
  Label.companion "wrap-before" Label.maxWidth,
  .of "wrap-width" .number Label.maxWidth fun v t => { t with maxWidth := some v },
  Label.companion "rotate-displacement" Label.rotate,
  .of "orientation" .number Label.rotate fun v t => { t with rotate := some v },
  .of "dx" .number (fun t => t.offset.map Prod.fst)
    fun v t => { t with offset := some (v, (t.offset.map Prod.snd).getD .zero) },
  .of "dy" .number (fun t => t.offset.map Prod.snd)
    fun v t => { t with offset := some ((t.offset.map Prod.fst).getD .zero, v) }]

/-! ## Anchors -/

namespace Anchor

def verticalAttribute : String := "vertical-alignment"

def horizontalAttribute : String := "horizontal-alignment"

/-- The vertical alignment of an anchor. -/
def vertical? : Anchor → Option String
  | .center => some "middle"
  | .left | .right => none
  | .top | .topLeft | .topRight => some "top"
  | .bottom | .bottomLeft | .bottomRight => some "bottom"

/-- The horizontal alignment of an anchor. -/
def horizontal? : Anchor → Option String
  | .center => some "middle"
  | .top | .bottom => none
  | .left | .topLeft | .bottomLeft => some "left"
  | .right | .topRight | .bottomRight => some "right"

/-- The anchor with some alignments. -/
def ofAlignments? (vertical horizontal : Option String) : Option Anchor :=
  (Vocabulary.all : List Anchor).find? fun anchor =>
    anchor.vertical? = vertical ∧ anchor.horizontal? = horizontal

end Anchor

end CartoStyle
