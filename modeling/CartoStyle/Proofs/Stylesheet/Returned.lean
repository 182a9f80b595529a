import CartoStyle.Proofs.Outcome
import CartoStyle.Proofs.Stylesheet.Table
import CartoStyle.Proofs.Stylesheet.Written

/-!
# Symbolizers read back

`Symbolizer.returned` is what is read from the elements of a symbolizer: its strings are settled, a
hidden one has an opacity of zero and says no more that it is hidden, an outline has become a line
of its own, a graphic is no more than its path, and an icon whose image is a glyph has become a
mark. For this the elements must arrive with what the reader looks up in them (`Carriage.Carries`);
other attributes may be added to them.
-/

namespace CartoStyle

open Stylesheet
open Xml (AttrValue Element)

/-! ## What is read back -/

namespace Graphic

/-- A graphic as it is read back: no more than its path. -/
def returned (way : Carriage) : Graphic → Option Graphic
  | .mark symbol => symbol.wellKnownName.map fun name => .mark { wellKnownName := some name }
  | .icon image => image.image.map fun path => ofFile (way.settled path)

end Graphic

/-- An area as it is read back, without its outline. -/
def Fill.returned (way : Carriage) (area : Fill) : Fill where
  color := area.color.map way.settled
  opacity := shownOpacity area.visibility area.opacity
  antialias := area.antialias
  graphicFill := area.graphicFill.bind (Graphic.returned way)

/-- A line as it is read back. -/
def Line.returned (way : Carriage) (stroke : Line) : Line where
  color := stroke.color.map way.settled
  opacity := shownOpacity stroke.visibility stroke.opacity
  width := stroke.width
  cap := stroke.cap
  join := stroke.join
  dasharray := stroke.dasharray
  graphicStroke := if stroke.graphicFill.isSome then none
    else stroke.graphicStroke.bind (Graphic.returned way)
  graphicFill := stroke.graphicFill.bind (Graphic.returned way)

/-- A mark as it is read back. -/
def Mark.returned (way : Carriage) (symbol : Mark) : Mark :=
  { symbol with
    color := symbol.color.map way.settled
    strokeColor := symbol.strokeColor.map way.settled
    fillOpacity := shownOpacity symbol.visibility symbol.fillOpacity
    visibility := none }

namespace Icon

/-- Whether an icon is read back as an icon and not as a mark. -/
def staysIcon (image : Icon) : Bool :=
  match image.image with
  | some path => (markOfPath? path).isNone
  | none => image.allowOverlap.isSome

/-- An icon as it is read back. -/
def returned (way : Carriage) (image : Icon) : Symbolizer :=
  if image.staysIcon then
    .icon { image with
      image := image.image.map way.settled
      color := image.color.map way.settled
      opacity := shownOpacity image.visibility image.opacity
      visibility := none }
  else
    .mark { image.asMark with
      wellKnownName := image.image.bind markOfPath?
      color := image.color.map way.settled
      fillOpacity := shownOpacity image.visibility image.opacity }

end Icon

def Raster.returned (cover : Raster) : Raster where
  opacity := shownOpacity cover.visibility cover.opacity

namespace Label

/-- A property that a label can be read back with. -/
def plainProperty? (property : String) : Option String :=
  if property.toList.isEmpty || property.toList.any (fun c => c == '[' || c == ']') then none
  else some property

/-- A label as it is read back. -/
def returned (way : Carriage) (label : Label) : Label :=
  { label with
    property := label.property.bind fun property => plainProperty? (way.inner property)
    color := label.color.map way.settled
    opacity := shownOpacity label.visibility label.opacity
    font := label.font.map way.names
    haloColor := label.haloColor.map way.settled
    visibility := none }

end Label

namespace Symbolizer

/-- The symbolizers that are read back from the elements of a symbolizer. -/
def returned (way : Carriage) : Symbolizer → List Symbolizer
  | .fill area => .fill (area.returned way) ::
      (if area.hasOutline then [.line (area.border.returned way)] else [])
  | .line stroke => [.line (stroke.returned way)]
  | .mark symbol => [.mark (symbol.returned way)]
  | .icon image => [image.returned way]
  | .raster cover => [.raster cover.returned]
  | .text label => [.text (label.returned way)]

/-- Dash lengths and rotations that can be read back. -/
def isSound : Symbolizer → Bool
  | .fill area => soundDashes area.outlineDasharray
  | .line stroke => soundDashes stroke.dasharray
  | .mark symbol => soundRotation symbol.rotate
  | .icon image => soundRotation image.rotate
  | .raster _ | .text _ => true

end Symbolizer

/-! ## What the reader looks up -/

namespace Stylesheet

/-- The attributes that are looked up in an element of some kind. -/
def consultedBy (element : Element) : DrawingTag → List String
  | .polygon | .polygonPattern => fileAttribute :: AttrField.names Fill.table
  | .line | .linePattern => fileAttribute :: AttrField.names Line.table
  | .markers =>
    if drawsIcon element then AttrField.names Icon.table
    else if (element.attribute? fileAttribute).isSome then
      fileAttribute :: AttrField.names Mark.table
    else fileAttribute :: "allow-overlap" :: AttrField.names Mark.table
  | .raster => AttrField.names Raster.table
  | .text => Anchor.verticalAttribute :: Anchor.horizontalAttribute :: AttrField.names Label.table

/-- The attributes that are looked up in an element. -/
def consulted (element : Element) : List String :=
  (Vocabulary.ofKeyword? element.name : Option DrawingTag).elim [] (consultedBy element)

theorem consulted_of_name {element : Element} {tag : DrawingTag}
    (name : element.name = keyword tag) :
    consulted element = consultedBy element tag := by
  rw [consulted, name, Vocabulary.ofKeyword?_keyword]
  rfl

/-- An element has arrived with everything that is looked up in it. -/
structure Carriage.Carries (way : Carriage) (written arrived : Element) : Prop where
  name_eq : arrived.name = written.name
  text_eq : arrived.text = way.content written.text
  attribute?_eq : ∀ name ∈ consulted written,
    arrived.attribute? name = (written.attribute? name).map way.value

namespace Carriage.Carries

variable {way : Carriage} {written arrived : Element}

theorem shows {σ : Type} {table : List (AttrField σ)} {record : σ}
    (carries : way.Carries written arrived) (has : Written written table record)
    (looked : ∀ name ∈ AttrField.names table, name ∈ consulted written) :
    AttrField.Shows way.value arrived table record := by
  intro field member
  rw [carries.attribute?_eq _ (looked _ (List.mem_map_of_mem member)), has field member]

/-- A text among the attributes arrives settled. -/
theorem attributeText?_eq (carries : way.Carries written arrived) {name : String}
    (looked : name ∈ consulted written) {text : Option String}
    (has : written.attribute? name = text.map .text) :
    arrived.attributeText? name = text.map way.settled := by
  rw [Element.attributeText?, carries.attribute?_eq _ looked, has]
  cases text with
  | none => rfl
  | some text => exact congrArg some (way.shown_text text)

end Carriage.Carries

end Stylesheet

/-! ## Reading -/

section Reading

variable {way : Carriage} {glyphs : Glyphs} {written arrived : Element}

/-- The path of a graphic leads back to what is left of the graphic. -/
theorem Graphic.returned_of_file? {graphic : Graphic} {path : Option String}
    (found : graphic.file? glyphs = .ok path) :
    path.map (fun path => ofFile (way.settled path)) = graphic.returned way := by
  cases graphic with
  | icon image =>
    cases found
    rfl
  | mark symbol =>
    rw [Graphic.file?] at found
    rw [Graphic.returned]
    cases named : symbol.wellKnownName with
    | none =>
      rw [named] at found
      cases found
      rfl
    | some name =>
      rw [named] at found
      obtain ⟨path, resolved, rfl⟩ := map_eq_ok_iff.mp found
      obtain ⟨file, known, rfl⟩ := Glyphs.resolve_eq_ok_iff.mp resolved
      have back := markOfPath?_path glyphs known
      simp [ofFile, way.markOfPath?_settled, back]

theorem Graphic.returned_of_path? {graphic : Option Graphic} {path : Option String}
    (found : path? glyphs graphic = .ok path) :
    (path.map way.settled).map ofFile = graphic.bind (returned way) := by
  cases graphic with
  | none =>
    cases found
    rfl
  | some graphic =>
    rw [Option.map_map]
    exact returned_of_file? found

/-- The element of an area is read back as the area. -/
theorem Fill.ofElement_polygonWith {area : Fill} {path : Option String}
    (graphic : (path.map way.settled).map Graphic.ofFile =
      area.graphicFill.bind (Graphic.returned way))
    (carries : way.Carries (area.polygonWith path) arrived) :
    (Symbolizer.ofElement arrived).result = .ok (.fill (area.returned way)) := by
  have name := area.name_polygonWith path
  have looked : consulted (area.polygonWith path) = fileAttribute :: AttrField.names table := by
    rw [consulted_of_name name, tag]
    split <;> rfl
  have fields := readAll_of_shows (carries.shows (area.written_polygonWith path) fun _ listed => by
    rw [looked]
    exact List.mem_cons_of_mem _ listed)
  have file := carries.attributeText?_eq (by rw [looked]; exact List.mem_cons_self ..)
    (area.attribute?_file_polygonWith path)
  have read : (ofElement arrived).result = .ok (area.returned way) := by
    simp only [ofElement, Traced.result_bind, Traced.result_ofExcept, fields,
      Traced.result_noteAll, Traced.result_pure, file, graphic]
    rfl
  rw [Symbolizer.ofElement, carries.name_eq, name, Vocabulary.ofKeyword?_keyword, tag]
  cases area.graphicFill.isSome <;> simp [read]

/-- The outline of an area is read back as a line. -/
theorem Fill.ofElement_outline {area : Fill} (sound : soundDashes area.outlineDasharray)
    (carries : way.Carries area.outline arrived) :
    (Symbolizer.ofElement arrived).result = .ok (.line (area.border.returned way)) := by
  have name : area.outline.name = keyword DrawingTag.line := rfl
  have looked : consulted area.outline = fileAttribute :: AttrField.names Line.table := by
    rw [consulted_of_name name]
    rfl
  have fields := Line.readAll_of_shows sound
    (carries.shows area.written_outline fun _ listed => by
      rw [looked]
      exact List.mem_cons_of_mem _ listed)
  have absent : area.outline.attribute? fileAttribute = (none : Option String).map .text :=
    attribute?_withFields_of_not_mem (by decide) area _
  have file := carries.attributeText?_eq (by rw [looked]; exact List.mem_cons_self ..) absent
  have other : keyword DrawingTag.line ≠ keyword DrawingTag.linePattern := by decide
  have read : (Line.ofElement arrived).result = .ok (area.border.returned way) := by
    simp only [Line.ofElement, Traced.result_bind, Traced.result_ofExcept, fields,
      Traced.result_noteAll, Traced.result_pure, file, carries.name_eq, name, if_neg other]
    rfl
  rw [Symbolizer.ofElement, carries.name_eq, name, Vocabulary.ofKeyword?_keyword]
  simp [read]

/-- The element of a line is read back as the line. -/
theorem Line.ofElement_elementWith {stroke : Line} (sound : soundDashes stroke.dasharray)
    {path : Option String} (graphic : (path.map way.settled).map Graphic.ofFile =
      stroke.graphic?.bind (Graphic.returned way))
    (carries : way.Carries (stroke.elementWith path) arrived) :
    (Symbolizer.ofElement arrived).result = .ok (.line (stroke.returned way)) := by
  have name := stroke.name_elementWith path
  have looked : consulted (stroke.elementWith path) = fileAttribute :: AttrField.names table := by
    rw [consulted_of_name name, tag]
    split <;> rfl
  have fields := readAll_of_shows (show soundDashes stroke.faded.dasharray from sound)
    (carries.shows (stroke.written_elementWith path) fun _ listed => by
      rw [looked]
      exact List.mem_cons_of_mem _ listed)
  have file := carries.attributeText?_eq (by rw [looked]; exact List.mem_cons_self ..)
    (stroke.attribute?_file_elementWith path)
  have other : keyword DrawingTag.line ≠ keyword DrawingTag.linePattern := by decide
  have read : (ofElement arrived).result = .ok (stroke.returned way) := by
    simp only [ofElement, Traced.result_bind, Traced.result_ofExcept, fields,
      Traced.result_noteAll, Traced.result_pure, file, graphic, carries.name_eq, name, ok_bind]
    rw [tag, Line.returned, Line.graphic?]
    cases stroke.graphicFill with
    | none => simp [other, faded]
    | some filling => simp [faded]
  rw [Symbolizer.ofElement, carries.name_eq, name, Vocabulary.ofKeyword?_keyword, tag]
  cases stroke.graphicFill.isSome <;> simp [read]

/-! ## Reading markers -/

theorem Stylesheet.file_mem_consultedBy (element : Element) :
    fileAttribute ∈ consultedBy element .markers := by
  rw [consultedBy]
  split
  · decide
  · split <;> exact List.mem_cons_self ..

/-- Without a path, the attribute that marks do not have is looked up. -/
theorem Stylesheet.allowOverlap_mem_consultedBy {element : Element}
    (absent : element.attribute? fileAttribute = none) :
    "allow-overlap" ∈ consultedBy element .markers := by
  rw [consultedBy]
  split
  · decide
  · rw [absent]
    exact List.mem_cons_of_mem _ (List.mem_cons_self ..)

/-- Markers that have arrived are known by the same attributes. -/
theorem Stylesheet.drawsIcon_arrived (markers : written.name = keyword DrawingTag.markers)
    (carries : way.Carries written arrived) {path : Option String}
    (file : written.attribute? fileAttribute = path.map .text) :
    drawsIcon arrived = drawsIcon written := by
  have consults := consulted_of_name markers
  have there := carries.attributeText?_eq (consults ▸ file_mem_consultedBy written) file
  have here : written.attributeText? fileAttribute = path := by
    rw [Element.attributeText?, file]
    cases path <;> rfl
  rw [drawsIcon, drawsIcon, there, here]
  cases path with
  | some path => exact congrArg Option.isNone (way.markOfPath?_settled path)
  | none =>
    have overlap := carries.attribute?_eq _ (consults ▸ allowOverlap_mem_consultedBy file)
    simp only [Option.map_none, overlap, Option.isSome_map]

/-- The element of a mark is read back as the mark. -/
theorem Mark.ofElement_elementWith {symbol : Mark} (sound : soundRotation symbol.rotate)
    {path : Option String} (glyph : path.map markOfPath? = symbol.wellKnownName.map some)
    (carries : way.Carries (symbol.elementWith path) arrived) :
    (Symbolizer.ofElement arrived).result = .ok (.mark (symbol.returned way)) := by
  have name := symbol.name_elementWith path
  have pathEq := symbol.attribute?_file_elementWith path
  have plain : drawsIcon (symbol.elementWith path) = false := by
    have file : (symbol.elementWith path).attributeText? fileAttribute = path := by
      rw [Element.attributeText?, pathEq]
      cases path <;> rfl
    rw [drawsIcon, file, attribute?_allowOverlap_elementWith]
    cases path with
    | none => rfl
    | some path =>
      cases named : symbol.wellKnownName with
      | none => simp [named] at glyph
      | some mark =>
        simp only [named, Option.map_some, Option.some.injEq] at glyph
        simp [glyph]
  have looked : ∀ name ∈ fileAttribute :: AttrField.names table,
      name ∈ consulted (symbol.elementWith path) := by
    intro attributeName member
    rw [consulted_of_name name, consultedBy, plain]
    simp only [Bool.false_eq_true, if_false]
    split
    · exact member
    · rcases List.mem_cons.mp member with rfl | listed
      · exact List.mem_cons_self ..
      · exact List.mem_cons_of_mem _ (List.mem_cons_of_mem _ listed)
  have file := carries.attributeText?_eq (looked _ (List.mem_cons_self ..)) pathEq
  have named : (arrived.attributeText? fileAttribute).bind markOfPath? = symbol.wellKnownName := by
    rw [file]
    cases path with
    | none => cases shape : symbol.wellKnownName <;> simp [shape] at glyph ⊢
    | some path =>
      cases shape : symbol.wellKnownName <;>
        simp [shape, way.markOfPath?_settled] at glyph ⊢
      exact glyph
  have fields := readAll_of_shows (show soundRotation symbol.faded.rotate from sound)
    (carries.shows (symbol.written_elementWith path) fun _ listed =>
      looked _ (List.mem_cons_of_mem _ listed)) symbol.wellKnownName
  have stays := drawsIcon_arrived name carries pathEq
  rw [Symbolizer.ofElement, carries.name_eq, name, Vocabulary.ofKeyword?_keyword]
  simp [markerOfElement, stays, plain, named, fields, returned, faded]

/-- The element of an icon is read back as the icon, or as the mark whose glyph it shows. -/
theorem Icon.ofElement_element {image : Icon} (sound : soundRotation image.rotate)
    (carries : way.Carries image.element arrived) :
    (Symbolizer.ofElement arrived).result = .ok (image.returned way) := by
  have name := image.name_element
  have pathEq := image.attribute?_file_element
  have kind : drawsIcon image.element = image.staysIcon := by
    have file : image.element.attributeText? fileAttribute = image.image := by
      rw [Element.attributeText?, pathEq]
      cases image.image <;> rfl
    rw [drawsIcon, file, attribute?_allowOverlap_element, staysIcon]
    cases image.image <;> simp
  have stays := drawsIcon_arrived name carries pathEq
  rw [kind] at stays
  rw [Symbolizer.ofElement, carries.name_eq, name, Vocabulary.ofKeyword?_keyword]
  cases icon : image.staysIcon with
  | true =>
    have looked : consulted image.element = AttrField.names table := by
      rw [consulted_of_name name, consultedBy, kind, icon]
      rfl
    have fields := readAll_of_shows (show soundRotation image.faded.rotate from sound)
      (carries.shows image.written_table fun _ listed => by rwa [looked])
    simp [markerOfElement, stays, icon, fields, returned, faded]
  | false =>
    have looked : ∀ name ∈ fileAttribute :: AttrField.names Mark.table,
        name ∈ consulted image.element := by
      intro attributeName member
      rw [consulted_of_name name, consultedBy, kind, icon]
      simp only [Bool.false_eq_true, if_false]
      split
      · exact member
      · rcases List.mem_cons.mp member with rfl | listed
        · exact List.mem_cons_self ..
        · exact List.mem_cons_of_mem _ (List.mem_cons_of_mem _ listed)
    have file := carries.attributeText?_eq (looked _ (List.mem_cons_self ..)) pathEq
    have named : (arrived.attributeText? fileAttribute).bind markOfPath? =
        image.image.bind markOfPath? := by
      rw [file]
      cases image.image with
      | none => rfl
      | some path => exact way.markOfPath?_settled path
    have fields := Mark.readAll_of_shows (show soundRotation image.faded.asMark.rotate from sound)
      (carries.shows image.written_markTable fun _ listed =>
        looked _ (List.mem_cons_of_mem _ listed)) (image.image.bind markOfPath?)
    simp [markerOfElement, stays, icon, named, fields, returned, faded, asMark]

theorem Raster.ofElement_element {cover : Raster} (carries : way.Carries cover.element arrived) :
    (Symbolizer.ofElement arrived).result = .ok (.raster cover.returned) := by
  have name := cover.name_element
  have looked : consulted cover.element = AttrField.names table := by
    rw [consulted_of_name name]
    rfl
  have fields :=
    readAll_of_shows (carries.shows cover.written_table fun _ listed => by rwa [looked])
  have read : (ofElement arrived).result = .ok cover.returned := by
    simp only [ofElement, Traced.result_bind, Traced.result_ofExcept, fields,
      Traced.result_noteAll, Traced.result_pure]
    rfl
  rw [Symbolizer.ofElement, carries.name_eq, name, Vocabulary.ofKeyword?_keyword]
  simp [read]

/-! ## Reading labels -/

namespace Label

/-- The property that is read from the text between the tags of a label. -/
def readProperty? (text : Option String) : Option String :=
  (bracketed? (Text.trim (text.getD "").toList)).bind fun inner =>
    plainProperty? (String.ofList inner)

theorem result_propertyOf (text : String) :
    (propertyOf text).result = .ok (readProperty? (some text)) := by
  rw [propertyOf, readProperty?, Option.getD_some]
  cases bracketed? (Text.trim text.toList) with
  | none => rfl
  | some inner =>
    simp only [Option.bind_some, plainProperty?, String.toList_ofList]
    split <;> rfl

theorem readProperty?_none : readProperty? none = none := rfl

/-- A label is read from its attributes and the text between its tags. -/
theorem result_ofElement (element : Element) : (ofElement element).result = do
    let label ← AttrField.readAll element table { property := readProperty? element.text }
    let anchor ← (anchorOf element).result
    return { label with anchor } := by
  rw [ofElement]
  cases element.text with
  | none =>
    simp only [Traced.result_bind, Traced.result_pure, Traced.result_ofExcept,
      Traced.result_noteAll, ok_bind, readProperty?_none]
    rfl
  | some text =>
    simp only [Traced.result_bind, Traced.result_pure, Traced.result_ofExcept,
      Traced.result_noteAll, ok_bind, result_propertyOf]
    rfl

/-- Alignments that no anchor has are no fault. -/
theorem exists_result_anchorOf (element : Element) :
    ∃ anchor, (anchorOf element).result = .ok anchor := by
  rw [anchorOf]
  split
  · exact ⟨none, rfl⟩
  · split <;> exact ⟨_, rfl⟩

theorem bracketed?_trim_propertyText (property : String) :
    bracketed? (Text.trim (propertyText property).toList) = some property.toList := by
  have shape := Carriage.toList_propertyText property
  have front : Text.Stops Text.isBlank (propertyText property).toList := by
    rw [shape]
    exact Text.stops_cons.mpr (by decide)
  have back : Text.Stops Text.isBlank (propertyText property).toList.reverse := by
    rw [shape]
    simp only [List.reverse_append, List.reverse_cons, List.reverse_nil, List.nil_append,
      List.cons_append]
    exact Text.stops_cons.mpr (by decide)
  rw [Text.trim_of_stops front back, shape]
  simp [bracketed?]

/-- The property of a label, written and carried, is read back if labels may have it. -/
theorem readProperty?_content (property : Option String) :
    readProperty? (way.content (property.map propertyText)) =
      property.bind fun property => plainProperty? (way.inner property) := by
  cases property with
  | none => rw [Option.map_none, way.content_none, readProperty?_none, Option.bind_none]
  | some property =>
    rw [Option.map_some, readProperty?, way.trim_content, way.inner_propertyText,
      bracketed?_trim_propertyText, Option.bind_some, Option.bind_some, String.ofList_toList]

/-- The anchor of a label is read back. -/
theorem result_anchorOf {anchor : Option Anchor}
    (vertical : arrived.attributeText? Anchor.verticalAttribute = anchor.bind Anchor.vertical?)
    (horizontal : arrived.attributeText? Anchor.horizontalAttribute =
      anchor.bind Anchor.horizontal?) :
    (anchorOf arrived).result = .ok anchor := by
  rw [anchorOf, vertical, horizontal]
  cases anchor with
  | none => rfl
  | some anchor => cases anchor <;> rfl

theorem isVisible_alignment {anchor : Option Anchor} {alignment : String}
    (member : alignment ∈ anchor.bind Anchor.vertical? ∨
      alignment ∈ anchor.bind Anchor.horizontal?) :
    ∀ c ∈ alignment.toList, Text.isVisible c := by
  have sound : ∀ anchor ∈ (Vocabulary.all : List Anchor),
      (∀ alignment ∈ anchor.vertical?, ∀ c ∈ alignment.toList, Text.isVisible c) ∧
        (∀ alignment ∈ anchor.horizontal?, ∀ c ∈ alignment.toList, Text.isVisible c) := by
    decide
  cases anchor with
  | none => rcases member with found | found <;> cases found
  | some anchor =>
    obtain ⟨vertical, horizontal⟩ := sound anchor (Vocabulary.mem_all anchor)
    rcases member with found | found
    · exact vertical alignment found
    · exact horizontal alignment found

/-- The element of a label is read back as the label. -/
theorem ofElement_element {label : Label} (carries : way.Carries label.element arrived) :
    (Symbolizer.ofElement arrived).result = .ok (.text (label.returned way)) := by
  have name := label.name_element
  have looked : consulted label.element = Anchor.verticalAttribute :: Anchor.horizontalAttribute ::
      AttrField.names table := by
    rw [consulted_of_name name]
    rfl
  have unchanged {alignment : Option String} (seen : ∀ text ∈ alignment, ∀ c ∈ text.toList,
      Text.isVisible c) : alignment.map way.settled = alignment := by
    cases alignment with
    | none => rfl
    | some text => exact congrArg some (way.settled_of_isVisible (seen text rfl))
  have vertical := carries.attributeText?_eq (by rw [looked]; exact List.mem_cons_self ..)
    label.attribute?_vertical_element
  have horizontal := carries.attributeText?_eq
    (by rw [looked]; exact List.mem_cons_of_mem _ (List.mem_cons_self ..))
    label.attribute?_horizontal_element
  rw [unchanged fun _ found => isVisible_alignment (.inl found)] at vertical
  rw [unchanged fun _ found => isVisible_alignment (.inr found)] at horizontal
  have property : readProperty? arrived.text = (label.returned way).property := by
    rw [carries.text_eq, text_element]
    exact readProperty?_content label.property
  have fields := readAll_of_shows (carries.shows label.written_table fun _ listed => by
    rw [looked]
    exact List.mem_cons_of_mem _ (List.mem_cons_of_mem _ listed)) (label.returned way).property
  have read : (ofElement arrived).result = .ok (label.returned way) := by
    rw [ofElement]
    cases text : arrived.text with
    | none =>
      rw [text] at property
      have start :
          (pure none : Traced (Option String)).result = .ok (label.returned way).property :=
        congrArg _ property
      simp only [Traced.result_bind, start, ok_bind, Traced.result_ofExcept, fields,
        result_anchorOf vertical horizontal, Traced.result_noteAll, Traced.result_pure]
      rfl
    | some content =>
      rw [text] at property
      have start : (propertyOf content).result = .ok (label.returned way).property :=
        (result_propertyOf content).trans (congrArg _ property)
      simp only [Traced.result_bind, start, ok_bind, Traced.result_ofExcept, fields,
        result_anchorOf vertical horizontal, Traced.result_noteAll, Traced.result_pure]
      rfl
  rw [Symbolizer.ofElement, carries.name_eq, name, Vocabulary.ofKeyword?_keyword]
  simp [read]

end Label

end Reading

end CartoStyle
