import CartoStyle.Proofs.Stylesheet.AttrField
import CartoStyle.Stylesheet.Drawing

/-!
# What written symbolizers show

The element that is written for a symbolizer shows its record by the table of its kind, with the
opacity at zero where it is hidden. A path adds the attribute of a file, and an anchor those of the
alignments, which are in no table but that of icons. An icon shows a mark as well, since all that
marks and icons have in common has the same attributes.
-/

namespace CartoStyle

open Stylesheet
open Xml (AttrValue Element)

/-- An opacity that is zero where something is hidden. -/
def shownOpacity (visibility : Option Bool) (opacity : Option Binary64) : Option Binary64 :=
  if visibility = some false then some .zero else opacity

namespace Stylesheet

variable {σ : Type} {table : List (AttrField σ)} {record : σ} {element : Element}

theorem attribute?_drawing (tag : DrawingTag) (name : String) :
    (drawing tag).attribute? name = none := rfl

theorem attribute?_withFields_of_mem (distinct : (AttrField.names table).Nodup)
    {field : AttrField σ}
    (member : field ∈ table) (record : σ) (element : Element) :
    (withFields table record element).attribute? field.attributeName =
      (field.write record).or (element.attribute? field.attributeName) :=
  AttrField.get?_writeAll_of_mem distinct member record element.attributes

theorem attribute?_withFields_of_not_mem {name : String} (absent : name ∉ AttrField.names table)
    (record : σ)
    (element : Element) :
    (withFields table record element).attribute? name = element.attribute? name :=
  AttrField.get?_writeAll_of_not_mem absent record element.attributes

/-- An element with an attribute for a text, if there is one. -/
def withText (attributeName : String) (text : Option String) (element : Element) : Element :=
  match text with
  | some text => element.withAttribute attributeName (.text text)
  | none => element

theorem attribute?_withText (attributeName : String) (text : Option String) (element : Element)
    (name : String) :
    (withText attributeName text element).attribute? name =
      if name = attributeName then (text.map .text).or (element.attribute? name)
      else element.attribute? name := by
  cases text with
  | none => simp [withText]
  | some text =>
    rw [withText]
    by_cases same : name = attributeName
    · subst same
      simp
    · simp [same, Element.attribute?_withAttribute_of_ne _ (Ne.symm same)]

theorem withFile_eq (path : Option String) (element : Element) :
    withFile path element = withText fileAttribute path element := by
  cases path <;> rfl

theorem attribute?_withVisibility (visibility : Option Bool) (opacityName : String)
    (element : Element) (name : String) :
    (withVisibility visibility opacityName element).attribute? name =
      if visibility = some false ∧ name = opacityName then some (.number .zero)
      else element.attribute? name := by
  rw [withVisibility]
  by_cases hidden : visibility = some false
  · by_cases same : name = opacityName
    · subst same
      simp [hidden]
    · simp [hidden, same, Element.attribute?_withAttribute_of_ne _ (Ne.symm same)]
  · simp [hidden]

theorem attribute?_withFields (distinct : (AttrField.names table).Nodup) (record : σ)
    (element : Element) (name : String) :
    (withFields table record element).attribute? name =
      ((table.find? fun field => field.attributeName = name).bind fun field =>
        field.write record).or (element.attribute? name) := by
  cases found : table.find? fun field => field.attributeName = name with
  | some field =>
    obtain rfl : field.attributeName = name := by simpa using List.find?_some found
    exact attribute?_withFields_of_mem distinct (List.mem_of_find?_eq_some found) record element
  | none =>
    apply attribute?_withFields_of_not_mem
    intro member
    obtain ⟨field, present, same⟩ := List.mem_map.mp member
    simpa [same] using List.find?_eq_none.mp found field present

section Shape

variable (record : σ) (attributeName : String) (text path : Option String)
  (visibility : Option Bool) (element : Element)

@[simp] theorem name_withFields : (withFields table record element).name = element.name := rfl

@[simp] theorem text_withFields : (withFields table record element).text = element.text := rfl

@[simp] theorem children_withFields :
    (withFields table record element).children = element.children := rfl

@[simp] theorem name_withText : (withText attributeName text element).name = element.name := by
  cases text <;> rfl

@[simp] theorem text_withText : (withText attributeName text element).text = element.text := by
  cases text <;> rfl

@[simp] theorem children_withText :
    (withText attributeName text element).children = element.children := by
  cases text <;> rfl

@[simp] theorem name_withVisibility :
    (withVisibility visibility attributeName element).name = element.name := by
  rw [withVisibility]
  split <;> rfl

@[simp] theorem text_withVisibility :
    (withVisibility visibility attributeName element).text = element.text := by
  rw [withVisibility]
  split <;> rfl

@[simp] theorem children_withVisibility :
    (withVisibility visibility attributeName element).children = element.children := by
  rw [withVisibility]
  split <;> rfl

end Shape

/-- An element has what is written for a record, under the names of a table. -/
abbrev Written (element : Element) (table : List (AttrField σ)) (record : σ) : Prop :=
  ∀ field ∈ table, element.attribute? field.attributeName = field.write record

theorem written_withFields (distinct : (AttrField.names table).Nodup) (record : σ)
    (bare : element.attributes = .empty) :
    Written (withFields table record element) table record := by
  intro field member
  have before : element.attribute? field.attributeName = none := by
    rw [Element.attribute?, bare]
    rfl
  rw [attribute?_withFields_of_mem distinct member, before, Option.or_none]

theorem Written.withFile (written : Written element table record)
    (absent : fileAttribute ∉ AttrField.names table) (path : Option String) :
    Written (withFile path element) table record := by
  intro field member
  have other : field.attributeName ≠ fileAttribute := by
    intro same
    exact absent (same ▸ List.mem_map_of_mem member)
  rw [withFile_eq, attribute?_withText, if_neg other, written field member]

/-- A hidden element has the record with its opacity at zero. -/
theorem Written.withVisibility (written : Written element table record)
    {visibility : Option Bool} {opacityName : String} {faded : σ}
    (visible : visibility ≠ some false → faded = record)
    (hidden : visibility = some false → ∀ field ∈ table, field.write faded =
      if field.attributeName = opacityName then some (.number .zero) else field.write record) :
    Written (withVisibility visibility opacityName element) table faded := by
  intro field member
  rw [attribute?_withVisibility]
  by_cases invisible : visibility = some false
  · rw [hidden invisible field member, written field member]
    simp [invisible]
  · rw [visible invisible, if_neg fun both => invisible both.1, written field member]

end Stylesheet

/-! ## Symbolizers -/

/-- The path of the graphic that an area or a line may have. -/
def Graphic.path? (glyphs : Glyphs) : Option Graphic → Except Problem (Option String)
  | some graphic => graphic.file? glyphs
  | none => .ok none

namespace Fill

theorem distinct_table : (AttrField.names table).Nodup := by decide

theorem distinct_outlineTable : (AttrField.names outlineTable).Nodup := by decide

/-- An area with its opacity as it is written. -/
def faded (area : Fill) : Fill := { area with opacity := shownOpacity area.visibility area.opacity }

/-- The kind of the element of an area. -/
def tag (area : Fill) : DrawingTag :=
  if area.graphicFill.isSome then .polygonPattern else .polygon

/-- The element of an area whose graphic has some path. -/
def polygonWith (area : Fill) (path : Option String) : Element :=
  withVisibility area.visibility "fill-opacity"
    (withFile path (withFields table area (drawing area.tag)))

theorem polygon_eq (area : Fill) (glyphs : Glyphs) :
    area.polygon glyphs = (Graphic.path? glyphs area.graphicFill).map area.polygonWith := by
  obtain ⟨_, _, _, graphicFill, _⟩ := area
  cases graphicFill with
  | none => rfl
  | some graphic =>
    simp only [Fill.polygon, Graphic.path?]
    cases graphic.file? glyphs <;> rfl

section

variable (area : Fill) (path : Option String)

theorem name_polygonWith : (area.polygonWith path).name = keyword area.tag := by
  simp [polygonWith, withFile_eq, drawing]

theorem written_polygonWith : Written (area.polygonWith path) table area.faded := by
  have plain := written_withFields distinct_table area
    (show (drawing area.tag).attributes = .empty from rfl)
  apply (plain.withFile (by decide) path).withVisibility
  · intro visible
    simp [faded, shownOpacity, visible]
  · intro hidden
    simp [table, AttrField.of, AttrForm.number, faded, shownOpacity, hidden]

theorem attribute?_file_polygonWith :
    (area.polygonWith path).attribute? fileAttribute = path.map .text := by
  have absent : fileAttribute ∉ AttrField.names table := by decide
  have other : fileAttribute ≠ "fill-opacity" := by decide
  rw [polygonWith, attribute?_withVisibility, if_neg fun both => other both.2, withFile_eq,
    attribute?_withText, if_pos rfl, attribute?_withFields_of_not_mem absent, attribute?_drawing,
    Option.or_none]

end

/-- The line that draws the outline of an area. -/
def border (area : Fill) : Line where
  color := area.outlineColor
  opacity := area.outlineOpacity
  width := area.outlineWidth
  dasharray := area.outlineDasharray

theorem written_outline (area : Fill) : Written area.outline Line.table area.border := by
  have found : ∀ name, area.outline.attribute? name = _ :=
    attribute?_withFields distinct_outlineTable area (drawing .line)
  simp [Written, Line.table, found, outlineTable, AttrField.of, List.find?, border,
    attribute?_drawing]

end Fill

namespace Line

theorem distinct_table : (AttrField.names table).Nodup := by decide

/-- A line with its opacity as it is written. -/
def faded (stroke : Line) : Line :=
  { stroke with opacity := shownOpacity stroke.visibility stroke.opacity }

/-- The kind of the element of a line. -/
def tag (stroke : Line) : DrawingTag :=
  if stroke.graphicFill.isSome then .linePattern else .line

/-- The element of a line whose graphic has some path. -/
def elementWith (stroke : Line) (path : Option String) : Element :=
  withFile path
    (withVisibility stroke.visibility "stroke-opacity"
      (withFields table stroke (drawing stroke.tag)))

theorem element_eq (stroke : Line) (glyphs : Glyphs) :
    stroke.element glyphs = (Graphic.path? glyphs stroke.graphic?).map stroke.elementWith := by
  obtain ⟨_, _, _, _, _, _, graphicStroke, graphicFill, _⟩ := stroke
  cases graphicFill with
  | none =>
    cases graphicStroke with
    | none => rfl
    | some graphic =>
      simp only [Line.element, Line.graphic?, Option.none_or, Graphic.path?]
      cases graphic.file? glyphs <;> rfl
  | some graphic =>
    simp only [Line.element, Line.graphic?, Option.some_or, Graphic.path?]
    cases graphic.file? glyphs <;> rfl

section

variable (stroke : Line) (path : Option String)

theorem name_elementWith : (stroke.elementWith path).name = keyword stroke.tag := by
  simp [elementWith, withFile_eq, drawing]

theorem written_elementWith : Written (stroke.elementWith path) table stroke.faded := by
  have plain := written_withFields distinct_table stroke
    (show (drawing stroke.tag).attributes = .empty from rfl)
  refine Written.withFile (plain.withVisibility ?_ ?_) (by decide) path
  · intro visible
    simp [faded, shownOpacity, visible]
  · intro hidden
    simp [table, AttrField.of, AttrForm.number, faded, shownOpacity, hidden]

theorem attribute?_file_elementWith :
    (stroke.elementWith path).attribute? fileAttribute = path.map .text := by
  have absent : fileAttribute ∉ AttrField.names table := by decide
  have other : fileAttribute ≠ "stroke-opacity" := by decide
  rw [elementWith, withFile_eq, attribute?_withText, if_pos rfl, attribute?_withVisibility,
    if_neg fun both => other both.2, attribute?_withFields_of_not_mem absent, attribute?_drawing,
    Option.or_none]

end

end Line

namespace Mark

theorem distinct_table : (AttrField.names table).Nodup := by decide

/-- A mark with its opacity as it is written. -/
def faded (symbol : Mark) : Mark :=
  { symbol with fillOpacity := shownOpacity symbol.visibility symbol.fillOpacity }

/-- The element of a mark whose glyph has some path. -/
def elementWith (symbol : Mark) (path : Option String) : Element :=
  withVisibility symbol.visibility "opacity"
    (withFile path (withFields table symbol (drawing .markers)))

theorem element_eq (symbol : Mark) (glyphs : Glyphs) :
    symbol.element glyphs = (Graphic.file? glyphs (.mark symbol)).map symbol.elementWith := by
  obtain ⟨wellKnownName, _⟩ := symbol
  cases wellKnownName with
  | none => rfl
  | some name =>
    simp only [Mark.element, Graphic.file?]
    cases glyphs.resolve name <;> rfl

section

variable (symbol : Mark) (path : Option String)

theorem name_elementWith : (symbol.elementWith path).name = keyword DrawingTag.markers := by
  simp [elementWith, withFile_eq, drawing]

theorem written_elementWith : Written (symbol.elementWith path) table symbol.faded := by
  have plain := written_withFields distinct_table symbol
    (show (drawing .markers).attributes = .empty from rfl)
  apply (plain.withFile (by decide) path).withVisibility
  · intro visible
    simp [faded, shownOpacity, visible]
  · intro hidden
    simp [table, AttrField.of, AttrForm.number, faded, shownOpacity, hidden]

theorem attribute?_file_elementWith :
    (symbol.elementWith path).attribute? fileAttribute = path.map .text := by
  have absent : fileAttribute ∉ AttrField.names table := by decide
  have other : fileAttribute ≠ "opacity" := by decide
  rw [elementWith, attribute?_withVisibility, if_neg fun both => other both.2, withFile_eq,
    attribute?_withText, if_pos rfl, attribute?_withFields_of_not_mem absent, attribute?_drawing,
    Option.or_none]

/-- Marks have no attribute for overlaps. -/
theorem attribute?_allowOverlap_elementWith :
    (symbol.elementWith path).attribute? "allow-overlap" = none := by
  have absent : "allow-overlap" ∉ AttrField.names table := by decide
  have other : "allow-overlap" ≠ "opacity" ∧ "allow-overlap" ≠ fileAttribute := by decide
  rw [elementWith, attribute?_withVisibility, if_neg fun both => other.1 both.2, withFile_eq,
    attribute?_withText, if_neg other.2, attribute?_withFields_of_not_mem absent,
    attribute?_drawing]

end

end Mark

namespace Icon

theorem distinct_table : (AttrField.names table).Nodup := by decide

/-- An icon with its opacity as it is written. -/
def faded (image : Icon) : Icon :=
  { image with opacity := shownOpacity image.visibility image.opacity }

theorem written_table (image : Icon) : Written image.element table image.faded := by
  have plain := written_withFields distinct_table image
    (show (drawing .markers).attributes = .empty from rfl)
  apply plain.withVisibility
  · intro visible
    simp [faded, shownOpacity, visible]
  · intro hidden
    simp [table, AttrField.of, AttrForm.number, faded, shownOpacity, hidden, fileAttribute]

theorem name_element (image : Icon) : image.element.name = keyword DrawingTag.markers := by
  simp [element, drawing]

theorem attribute?_file_element (image : Icon) :
    image.element.attribute? fileAttribute = image.image.map .text :=
  image.written_table (.of fileAttribute .text Icon.image fun v i => { i with image := some v })
    (by simp [table])

theorem attribute?_allowOverlap_element (image : Icon) :
    image.element.attribute? "allow-overlap" = image.allowOverlap.map .flag :=
  image.written_table
    (.of "allow-overlap" .flag Icon.allowOverlap fun v i => { i with allowOverlap := some v })
    (by simp [table])

/-- What an icon has in common with marks. -/
def asMark (image : Icon) : Mark where
  color := image.color
  fillOpacity := image.opacity
  radius := image.size
  avoidEdges := image.avoidEdges
  rotate := image.rotate

/-- An element that has an icon has what the icon has in common with marks. -/
theorem written_markTable (image : Icon) : Written image.element Mark.table image.faded.asMark := by
  have found : ∀ name, (withFields table image (drawing .markers)).attribute? name = _ :=
    attribute?_withFields distinct_table image (drawing .markers)
  have plain : Written (withFields table image (drawing .markers)) Mark.table image.asMark := by
    generalize withFields table image (drawing .markers) = element at found
    simp [Written, Mark.table, found, table, AttrField.of, List.find?, asMark, attribute?_drawing,
      fileAttribute]
  apply plain.withVisibility
  · intro visible
    simp [faded, shownOpacity, visible]
  · intro hidden
    simp [Mark.table, AttrField.of, AttrForm.number, asMark, faded, shownOpacity, hidden]

end Icon

namespace Raster

theorem distinct_table : (AttrField.names table).Nodup := by decide

/-- A cover with its opacity as it is written. -/
def faded (cover : Raster) : Raster :=
  { cover with opacity := shownOpacity cover.visibility cover.opacity }

theorem name_element (cover : Raster) : cover.element.name = keyword DrawingTag.raster := by
  simp [element, drawing]

theorem written_table (cover : Raster) : Written cover.element table cover.faded := by
  have plain := written_withFields distinct_table cover
    (show (drawing .raster).attributes = .empty from rfl)
  apply plain.withVisibility
  · intro visible
    simp [faded, shownOpacity, visible]
  · intro hidden
    simp [table, AttrField.of, AttrForm.number, faded, shownOpacity, hidden]

end Raster

namespace Label

theorem distinct_table : (AttrField.names table).Nodup := by decide

/-- A label with its opacity as it is written. -/
def faded (label : Label) : Label :=
  { label with opacity := shownOpacity label.visibility label.opacity }

theorem withAnchor_eq (anchor : Option Anchor) (element : Element) :
    withAnchor anchor element =
      withText Anchor.horizontalAttribute (anchor.bind Anchor.horizontal?)
        (withText Anchor.verticalAttribute (anchor.bind Anchor.vertical?) element) := by
  cases anchor <;> rfl

theorem written_table (label : Label) : Written label.element table label.faded := by
  have plain := written_withFields distinct_table label
    (show ({ drawing .text with text := label.property.map propertyText } : Element).attributes =
      .empty from rfl)
  have anchored : Written (withAnchor label.anchor (withFields table label
      { drawing .text with text := label.property.map propertyText })) table label := by
    intro field member
    have others : Anchor.verticalAttribute ∉ AttrField.names table ∧
        Anchor.horizontalAttribute ∉ AttrField.names table := by decide
    have listed : field.attributeName ∈ AttrField.names table := List.mem_map_of_mem member
    have vertical : field.attributeName ≠ Anchor.verticalAttribute := fun same =>
      others.1 (same ▸ listed)
    have horizontal : field.attributeName ≠ Anchor.horizontalAttribute := fun same =>
      others.2 (same ▸ listed)
    rw [withAnchor_eq, attribute?_withText, if_neg horizontal, attribute?_withText,
      if_neg vertical, plain field member]
  apply anchored.withVisibility
  · intro visible
    simp [faded, shownOpacity, visible]
  · intro hidden
    simp [table, companion, AttrField.of, AttrForm.number, faded, shownOpacity, hidden]

theorem name_element (label : Label) : label.element.name = keyword DrawingTag.text := by
  simp [element, withAnchor_eq, drawing]

theorem text_element (label : Label) : label.element.text = label.property.map propertyText := by
  simp [element, withAnchor_eq]

theorem attribute?_vertical_element (label : Label) :
    label.element.attribute? Anchor.verticalAttribute =
      (label.anchor.bind Anchor.vertical?).map .text := by
  have absent : Anchor.verticalAttribute ∉ AttrField.names table := by decide
  have other : Anchor.verticalAttribute ≠ "opacity" ∧
      Anchor.verticalAttribute ≠ Anchor.horizontalAttribute := by decide
  rw [element, attribute?_withVisibility, if_neg fun both => other.1 both.2, withAnchor_eq,
    attribute?_withText, if_neg other.2, attribute?_withText, if_pos rfl,
    attribute?_withFields_of_not_mem absent]
  exact Option.or_none

theorem attribute?_horizontal_element (label : Label) :
    label.element.attribute? Anchor.horizontalAttribute =
      (label.anchor.bind Anchor.horizontal?).map .text := by
  have absent : Anchor.horizontalAttribute ∉ AttrField.names table := by decide
  have other : Anchor.horizontalAttribute ≠ "opacity" ∧
      Anchor.horizontalAttribute ≠ Anchor.verticalAttribute := by decide
  rw [element, attribute?_withVisibility, if_neg fun both => other.1 both.2, withAnchor_eq,
    attribute?_withText, if_pos rfl, attribute?_withText, if_neg other.2,
    attribute?_withFields_of_not_mem absent]
  exact Option.or_none

end Label

end CartoStyle
