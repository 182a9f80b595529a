import CartoStyle.Stylesheet.Glyph
import CartoStyle.Stylesheet.Table

/-!
# Elements that draw

`Symbolizer.elements` writes a symbolizer as elements: one, or two for an area with an outline,
which is drawn by a line of its own. `Symbolizer.ofElement` reads one symbolizer from one element. A
hidden symbolizer is written with an opacity of zero.
-/

namespace CartoStyle

open Stylesheet
open Xml (Element AttrValue)

/-! ## Graphics -/

namespace Graphic

/-- The path of a graphic, if there is one. -/
def file? (glyphs : Glyphs) : Graphic → Except Problem (Option String)
  | .mark symbol =>
    match symbol.wellKnownName with
    | none => .ok none
    | some name => (glyphs.resolve name).map some
  | .icon image => .ok image.image

/-- The graphic at a path: a mark if a glyph is there, else an icon. -/
def ofFile (path : String) : Graphic :=
  match markOfPath? path with
  | some name => .mark { wellKnownName := some name }
  | none => .icon { image := some path }

end Graphic

namespace Stylesheet

/-- An element that draws. -/
def drawing (tag : DrawingTag) : Element := { name := keyword tag }

/-- An element with the attributes of a record. -/
def withFields {σ : Type} (table : List (AttrField σ)) (record : σ) (element : Element) : Element :=
  { element with attributes := AttrField.writeAll table record element.attributes }

/-- An element with an attribute for a path, if there is one. -/
def withFile (path : Option String) (element : Element) : Element :=
  match path with
  | some path => element.withAttribute fileAttribute (.text path)
  | none => element

/-- An element whose opacity is zero if it is said to be invisible. -/
def withVisibility (visibility : Option Bool) (opacityName : String) (element : Element) :
    Element :=
  if visibility = some false then element.withAttribute opacityName (.number .zero) else element

end Stylesheet

/-! ## Writing -/

namespace Fill

/-- The polygon of an area. -/
def polygon (area : Fill) (glyphs : Glyphs) : Except Problem Element := do
  let tag := if area.graphicFill.isSome then DrawingTag.polygonPattern else .polygon
  let path ← match area.graphicFill with
    | some graphic => graphic.file? glyphs
    | none => .ok none
  return withVisibility area.visibility "fill-opacity"
    (withFile path (withFields table area (drawing tag)))

/-- The line along the border of an area. -/
def outline (area : Fill) : Element := withFields outlineTable area (drawing .line)

def elements (area : Fill) (glyphs : Glyphs) : Except Problem (List Element) := do
  let polygon ← area.polygon glyphs
  return polygon :: (if area.hasOutline then [area.outline] else [])

end Fill

namespace Line

/-- The graphic that is drawn: one that fills the line goes before one that follows it. -/
def graphic? (stroke : Line) : Option Graphic := stroke.graphicFill.or stroke.graphicStroke

def element (stroke : Line) (glyphs : Glyphs) : Except Problem Element := do
  let tag := if stroke.graphicFill.isSome then DrawingTag.linePattern else .line
  let path ← match stroke.graphic? with
    | some graphic => graphic.file? glyphs
    | none => .ok none
  return withFile path
    (withVisibility stroke.visibility "stroke-opacity" (withFields table stroke (drawing tag)))

end Line

def Mark.element (symbol : Mark) (glyphs : Glyphs) : Except Problem Element := do
  let path ← match symbol.wellKnownName with
    | some name => (glyphs.resolve name).map some
    | none => .ok none
  return withVisibility symbol.visibility "opacity"
    (withFile path (withFields table symbol (drawing .markers)))

def Icon.element (image : Icon) : Element :=
  withVisibility image.visibility "opacity" (withFields table image (drawing .markers))

def Raster.element (cover : Raster) : Element :=
  withVisibility cover.visibility "opacity" (withFields table cover (drawing .raster))

namespace Label

/-- An element with the alignments of an anchor. -/
def withAnchor (anchor : Option Anchor) (element : Element) : Element :=
  match anchor with
  | none => element
  | some anchor =>
    let element := match anchor.vertical? with
      | some alignment => element.withAttribute Anchor.verticalAttribute (.text alignment)
      | none => element
    match anchor.horizontal? with
    | some alignment => element.withAttribute Anchor.horizontalAttribute (.text alignment)
    | none => element

/-- The expression that stands for a property. -/
def propertyText (property : String) : String := s!"[{property}]"

def element (label : Label) : Element :=
  withVisibility label.visibility "opacity" (withAnchor label.anchor
    (withFields table label { drawing .text with text := label.property.map propertyText }))

end Label

/-- The elements that draw a symbolizer. -/
def Symbolizer.elements (glyphs : Glyphs) : Symbolizer → Except Problem (List Element)
  | .fill area => area.elements glyphs
  | .line stroke => do return [← stroke.element glyphs]
  | .mark symbol => do return [← symbol.element glyphs]
  | .icon image => .ok [image.element]
  | .raster cover => .ok [cover.element]
  | .text label => .ok [label.element]

/-! ## Reading -/

namespace Fill

def ofElement (element : Element) : Traced Fill := do
  let area ← .ofExcept (AttrField.readAll element table {})
  let path := element.attributeText? fileAttribute
  .noteAll (AttrField.ignored element table [fileAttribute])
  return { area with graphicFill := path.map Graphic.ofFile }

end Fill

namespace Line

/-- The line that an element draws. Its graphic fills it only where the element is for that. -/
def ofElement (element : Element) : Traced Line := do
  let stroke ← .ofExcept (AttrField.readAll element table {})
  let graphic := (element.attributeText? fileAttribute).map Graphic.ofFile
  .noteAll (AttrField.ignored element table [fileAttribute])
  return if element.name = keyword DrawingTag.linePattern
    then { stroke with graphicFill := graphic }
    else { stroke with graphicStroke := graphic }

end Line

namespace Stylesheet

/-- Whether markers are an icon. The path decides where there is one; else an icon is known by the
attribute that marks do not have. -/
def drawsIcon (element : Element) : Bool :=
  match element.attributeText? fileAttribute with
  | some path => (markOfPath? path).isNone
  | none => (element.attribute? "allow-overlap").isSome

/-- The mark or the icon of markers. -/
def markerOfElement (element : Element) : Traced Symbolizer := do
  if drawsIcon element then
    let image ← .ofExcept (AttrField.readAll element Icon.table {})
    .noteAll (AttrField.ignored element Icon.table [])
    return .icon image
  else
    let name := (element.attributeText? fileAttribute).bind markOfPath?
    let symbol ← .ofExcept (AttrField.readAll element Mark.table { wellKnownName := name })
    .noteAll (AttrField.ignored element Mark.table [fileAttribute])
    return .mark symbol

end Stylesheet

def Raster.ofElement (element : Element) : Traced Raster := do
  let cover ← .ofExcept (AttrField.readAll element table {})
  .noteAll (AttrField.ignored element table [])
  return cover

namespace Label

/-- The text between the brackets around it, if there are any. -/
def bracketed? (text : List Char) : Option (List Char) :=
  match text with
  | '[' :: rest =>
    match rest.reverse with
    | ']' :: inner => some inner.reverse
    | _ => none
  | _ => none

/-- The property that a text stands for. A richer expression has none, and leaves a note if it
stands between brackets. -/
def propertyOf (text : String) : Traced (Option String) :=
  match bracketed? (Text.trim text.toList) with
  | none => pure none
  | some inner =>
    if inner.isEmpty || inner.any (fun c => c == '[' || c == ']') then do
      .note (.notAProperty text)
      return none
    else return some (String.ofList inner)

/-- The anchor of an element with some alignment. -/
def anchorOf (element : Element) : Traced (Option Anchor) :=
  match element.attributeText? Anchor.verticalAttribute,
      element.attributeText? Anchor.horizontalAttribute with
  | none, none => pure none
  | vertical, horizontal =>
    match Anchor.ofAlignments? vertical horizontal with
    | some anchor => return some anchor
    | none => do
      .note (.noAnchor vertical horizontal)
      return none

def ofElement (element : Element) : Traced Label := do
  let property ← match element.text with
    | some text => propertyOf text
    | none => pure none
  let label ← .ofExcept (AttrField.readAll element table { property })
  let anchor ← anchorOf element
  .noteAll (AttrField.ignored element table [Anchor.verticalAttribute, Anchor.horizontalAttribute])
  return { label with anchor }

end Label

namespace Symbolizer

/-- The symbolizer that an element draws. -/
def ofElement (element : Element) : Traced Symbolizer :=
  match (Vocabulary.ofKeyword? element.name : Option DrawingTag) with
  | none => .ofExcept (.error (.unrecognizedElement element.name))
  | some .polygon | some .polygonPattern => return .fill (← Fill.ofElement element)
  | some .line | some .linePattern => return .line (← Line.ofElement element)
  | some .markers => markerOfElement element
  | some .raster => return .raster (← Raster.ofElement element)
  | some .text => return .text (← Label.ofElement element)

/-- The symbolizers that elements draw; a problem tells the place of its element, counted from
`index`. -/
def ofElementsFrom (index : Nat) : List Element → Traced (List Symbolizer)
  | [] => pure []
  | element :: others => do
    let symbolizer ← (ofElement element).mapProblem (.inSymbolizer index element.name)
    let symbolizers ← ofElementsFrom (index + 1) others
    return symbolizer :: symbolizers

/-- The symbolizers that elements draw. -/
def ofElements : List Element → Traced (List Symbolizer) := ofElementsFrom 0

end Symbolizer

end CartoStyle
