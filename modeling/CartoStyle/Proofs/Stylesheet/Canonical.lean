import CartoStyle.Proofs.Stylesheet.Fixed

/-!
# Symbolizers read back from their own elements

The elements of a symbolizer, read without a document in between, give its canonical form
(`Symbolizer.ofElements_elements`). What was said twice is said once there: a hidden symbolizer is
one with an opacity of zero, an outline is a line, and an image that is a glyph is a mark. What has
no attribute is gone: all of a graphic but its path, the graphic along a line that is filled with
another one, and a property that is empty or has brackets.
-/

namespace CartoStyle

open Stylesheet
open Xml (Element)

/-! ## Canonical forms -/

/-- A graphic that is no more than the name of a mark or the path of an image. -/
def Graphic.canonical : Graphic → Option Graphic
  | .mark symbol => symbol.wellKnownName.map fun name => .mark { wellKnownName := some name }
  | .icon image => image.image.map ofFile

/-- An area without its outline. -/
def Fill.canonical (area : Fill) : Fill where
  color := area.color
  opacity := shownOpacity area.visibility area.opacity
  antialias := area.antialias
  graphicFill := area.graphicFill.bind Graphic.canonical

def Line.canonical (stroke : Line) : Line :=
  { stroke with
    opacity := shownOpacity stroke.visibility stroke.opacity
    graphicStroke := if stroke.graphicFill.isSome then none
      else stroke.graphicStroke.bind Graphic.canonical
    graphicFill := stroke.graphicFill.bind Graphic.canonical
    visibility := none }

def Mark.canonical (symbol : Mark) : Mark :=
  { symbol with
    fillOpacity := shownOpacity symbol.visibility symbol.fillOpacity
    visibility := none }

namespace Icon

/-- What an icon says, as a mark with some name. -/
def canonicalMark (image : Icon) (name : Option String) : Mark where
  wellKnownName := name
  color := image.color
  fillOpacity := shownOpacity image.visibility image.opacity
  radius := image.size
  avoidEdges := image.avoidEdges
  rotate := image.rotate

def canonicalIcon (image : Icon) : Icon :=
  { image with
    opacity := shownOpacity image.visibility image.opacity
    visibility := none }

/-- An icon is a mark if its image is a glyph. Without an image it is known as an icon only if it
says something about overlap. -/
def canonical (image : Icon) : Symbolizer :=
  match image.image with
  | some path =>
    match markOfPath? path with
    | some name => .mark (image.canonicalMark (some name))
    | none => .icon image.canonicalIcon
  | none =>
    if image.allowOverlap.isSome then .icon image.canonicalIcon
    else .mark (image.canonicalMark none)

end Icon

def Raster.canonical (cover : Raster) : Raster where
  opacity := shownOpacity cover.visibility cover.opacity

namespace Label

/-- Whether a property can be told from an expression. -/
def isProperty (property : String) : Bool :=
  property != "" && property.toList.all fun c => c != '[' && c != ']'

/-- A name with commas is several names. -/
def canonical (label : Label) : Label :=
  { label with
    property := label.property.filter isProperty
    opacity := shownOpacity label.visibility label.opacity
    font := label.font.map (·.flatMap AttrForm.namesOf)
    visibility := none }

end Label

namespace Symbolizer

/-- A symbolizer in the form that its elements have room for. -/
def canonical : Symbolizer → List Symbolizer
  | .fill area => .fill area.canonical ::
      (if area.hasOutline then [.line area.border] else [])
  | .line stroke => [.line stroke.canonical]
  | .mark symbol => [.mark symbol.canonical]
  | .icon image => [image.canonical]
  | .raster cover => [.raster cover.canonical]
  | .text label => [.text label.canonical]

end Symbolizer

/-! ## Names in a list -/

namespace Stylesheet

theorem splitAt_append_cons (separator : Char) (front back : List Char) :
    Text.splitAt separator (front ++ separator :: back) =
      Text.splitAt separator front ++ Text.splitAt separator back := by
  induction front with
  | nil => simp [Text.splitAt]
  | cons c front ih =>
    rw [List.cons_append, Text.splitAt, Text.splitAt]
    split
    · rw [ih, List.cons_append]
    · obtain ⟨piece, pieces, shape⟩ :=
        List.exists_cons_of_ne_nil (Text.splitAt_ne_nil separator front)
      rw [ih, shape]
      rfl

theorem map_trim_splitAt_blank (text : List Char) :
    (Text.splitAt ',' (' ' :: text)).map Text.trim = (Text.splitAt ',' text).map Text.trim := by
  obtain ⟨piece, pieces, shape⟩ := List.exists_cons_of_ne_nil (Text.splitAt_ne_nil ',' text)
  have blank : Text.trim ([' '] ++ piece) = Text.trim piece :=
    Text.trim_blank_append (by decide) piece
  rw [Text.splitAt, shape]
  exact congrArg (· :: pieces.map Text.trim) blank

namespace AttrForm

theorem namesOf_append_comma (front back : String) :
    namesOf (front ++ ", " ++ back) = namesOf front ++ namesOf back := by
  have text : (front ++ ", " ++ back).toList = front.toList ++ ',' :: ' ' :: back.toList := by
    simp
  rw [namesOf, text, splitAt_append_cons, List.map_append, map_trim_splitAt_blank,
    List.filterMap_append]
  rfl

/-- Names joined to a list and read from it are read one by one. -/
theorem namesOf_intercalate_eq_flatMap (names : List String) :
    namesOf (", ".intercalate names) = names.flatMap namesOf := by
  induction names with
  | nil => rfl
  | cons name others ih =>
    cases others with
    | nil => simp
    | cons second others =>
      have joined : ", ".intercalate (name :: second :: others) =
          name ++ ", " ++ ", ".intercalate (second :: others) := by
        apply String.toList_inj.mp
        simp [String.toList_intercalate]
      rw [joined, namesOf_append_comma, ih]
      rfl

end AttrForm

end Stylesheet

/-! ## Reading without a document -/

@[simp] theorem Stylesheet.Carriage.settled_direct : direct.settled = id := rfl

theorem Stylesheet.Carriage.carries_direct (element : Element) :
    Carriage.direct.Carries element element :=
  ⟨rfl, rfl, fun _ _ => by simp [Carriage.direct]⟩

theorem Graphic.returned_direct (graphic : Graphic) :
    graphic.returned .direct = graphic.canonical := by
  cases graphic <;> rfl

theorem Graphic.bind_returned_direct (graphic : Option Graphic) :
    graphic.bind (returned .direct) = graphic.bind canonical := by
  cases graphic with
  | none => rfl
  | some graphic => exact graphic.returned_direct

theorem Label.plainProperty?_eq (property : String) :
    plainProperty? property = (some property).filter isProperty := by
  have same : (property.toList.isEmpty || property.toList.any fun c => c == '[' || c == ']') =
      !isProperty property := by
    rw [Bool.eq_iff_iff]
    simp [isProperty, Classical.or_iff_not_imp_left]
  rw [plainProperty?, Option.filter_some, same]
  cases isProperty property <;> rfl

theorem Label.returned_direct (label : Label) : label.returned .direct = label.canonical := by
  have property :
      (label.property.bind fun property => plainProperty? (Carriage.direct.inner property)) =
      label.property.filter isProperty := by
    cases label.property with
    | none => rfl
    | some property => exact plainProperty?_eq property
  have font : label.font.map Carriage.direct.names = label.font.map (·.flatMap AttrForm.namesOf) :=
    congrArg (label.font.map ·) (funext AttrForm.namesOf_intercalate_eq_flatMap)
  rw [returned, canonical, property, font]
  simp

theorem Icon.returned_direct (image : Icon) : image.returned .direct = image.canonical := by
  rw [returned, staysIcon, canonical]
  cases shown : image.image with
  | none =>
    cases image.allowOverlap.isSome with
    | false => simp [canonicalMark, asMark]
    | true => simp [canonicalIcon, shown]
  | some path =>
    cases glyph : markOfPath? path with
    | none => simp [canonicalIcon, glyph, shown]
    | some name => simp [canonicalMark, asMark, glyph]

namespace Symbolizer

theorem returned_direct (symbolizer : Symbolizer) :
    symbolizer.returned .direct = symbolizer.canonical := by
  cases symbolizer with
  | fill area =>
    have same : area.returned .direct = area.canonical := by
      simp [Fill.returned, Fill.canonical, Graphic.bind_returned_direct]
    have outline : area.border.returned .direct = area.border := by
      simp [Line.returned, Fill.border, shownOpacity]
    rw [returned, canonical, same, outline]
  | line stroke =>
    simp [returned, canonical, Line.returned, Line.canonical, Graphic.bind_returned_direct]
  | mark symbol => simp [returned, canonical, Mark.returned, Mark.canonical]
  | icon image => rw [returned, canonical, image.returned_direct]
  | raster cover => rfl
  | text label => rw [returned, canonical, label.returned_direct]

/-- What the elements of a symbolizer are read as, where nothing stands between the writer and the
reader. -/
theorem result_ofElements_direct {glyphs : Glyphs} {symbolizer : Symbolizer}
    {elements : List Element} (built : symbolizer.elements glyphs = .ok elements)
    (sound : symbolizer.isSound) :
    (ofElements elements).result = .ok (symbolizer.returned .direct) := by
  have read := result_ofElementsFrom_elements built sound
    (fun element _ => Carriage.carries_direct (id element)) 0
  rwa [List.map_id] at read

/-- The elements of a symbolizer are read as its canonical form. -/
theorem ofElements_elements {glyphs : Glyphs} {symbolizer : Symbolizer} {elements : List Element}
    (built : symbolizer.elements glyphs = .ok elements) (sound : symbolizer.isSound) :
    (ofElements elements).result = .ok symbolizer.canonical := by
  rw [result_ofElements_direct built sound, symbolizer.returned_direct]

/-- A hidden area, filled with a star, whose outline is dashed. -/
def hiddenArea : Symbolizer := .fill {
  color := some "#eeeeee"
  opacity := some .one
  graphicFill := some (.mark { wellKnownName := some "Star", color := some "red" })
  outlineColor := some "#333333"
  outlineDasharray := some [.one, .zero]
  visibility := some false }

theorem ofElements_hiddenArea : ∃ elements,
    hiddenArea.elements { directory := some "glyphs/" } = .ok elements ∧ hiddenArea.isSound ∧
    (ofElements elements).result = .ok [
      .fill {
        color := some "#eeeeee"
        opacity := some .zero
        graphicFill := some (.mark { wellKnownName := some "Star" }) },
      .line { color := some "#333333", dasharray := some [.one, .zero] }] :=
  ⟨_, rfl, by decide, @ofElements_elements _ hiddenArea _ rfl (by decide)⟩

end Symbolizer

end CartoStyle
