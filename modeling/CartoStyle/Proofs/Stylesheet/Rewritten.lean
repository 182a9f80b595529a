import CartoStyle.Proofs.Stylesheet.Canonical

/-!
# Symbolizers that have been read

Whatever the reader takes from an element has a place in a stylesheet. A table leaves the parts of a
record alone that it has no attribute for (`AttrField.readAll_keeps`), and a part is as its
attribute says wherever there is one (`AttrField.readAll_sets`). So a symbolizer that has been read
is its own canonical form, and can be written: as one element, which may differ from the one that
was read, but is read as the same symbolizer (`Symbolizer.ofElement_elements_of_ofElement`).
-/

namespace CartoStyle

open Stylesheet
open Xml (AttrValue Element)

/-! ## What holds of the records that are read -/

namespace Stylesheet.AttrField

variable {σ α : Type} {element : Element} {P : σ → Prop} {field : AttrField σ}
  {table : List (AttrField σ)} {record result : σ}

/-- What holds of a record holds of it when an attribute of the element has been read. -/
def Keeps (element : Element) (P : σ → Prop) (field : AttrField σ) : Prop :=
  ∀ value before after, element.attribute? field.attributeName = some value →
    field.read value before = some after → P before → P after

theorem keeps_of {name : String} {form : AttrForm α} {get : σ → Option α} {set : α → σ → σ}
    (kept : ∀ value part before, element.attribute? name = some value →
      form.read value = some part → P before → P (set part before)) :
    (of name form get set).Keeps element P := by
  intro value before after found said held
  obtain ⟨part, read, rfl⟩ := Option.map_eq_some_iff.mp said
  exact kept value part before found read held

/-- A field that is read takes in the value of its attribute, if there is one. -/
theorem readAll_cons_eq_ok (read : readAll element (field :: table) record = .ok result) :
    ∃ middle, (element.attribute? field.attributeName = none ∧ middle = record ∨
        ∃ value, element.attribute? field.attributeName = some value ∧
          field.read value record = some middle) ∧
      readAll element table middle = .ok result := by
  rw [readAll] at read
  split at read
  · rename_i absent
    exact ⟨record, .inl ⟨absent, rfl⟩, read⟩
  · rename_i value found
    split at read
    · cases read
    · rename_i middle said
      exact ⟨middle, .inr ⟨value, found, said⟩, read⟩

/-- What every field keeps holds of the record that is read. -/
theorem readAll_keeps (keeps : ∀ field ∈ table, field.Keeps element P)
    (read : readAll element table record = .ok result) (held : P record) : P result := by
  induction table generalizing record with
  | nil =>
    cases read
    exact held
  | cons field table ih =>
    obtain ⟨keeps_field, keeps⟩ := List.forall_mem_cons.mp keeps
    obtain ⟨middle, here, rest⟩ := readAll_cons_eq_ok read
    apply ih keeps rest
    rcases here with ⟨-, rfl⟩ | ⟨value, found, said⟩
    · exact held
    · exact keeps_field value record middle found said held

/-- What one field brings about and every field keeps holds of the record that is read, if the
attribute of the field is there. -/
theorem readAll_sets (keeps : ∀ field ∈ table, field.Keeps element P) (member : field ∈ table)
    {value : AttrValue} (found : element.attribute? field.attributeName = some value)
    (sets : ∀ before after, field.read value before = some after → P after)
    (read : readAll element table record = .ok result) : P result := by
  induction table generalizing record with
  | nil => cases member
  | cons first table ih =>
    obtain ⟨middle, here, rest⟩ := readAll_cons_eq_ok read
    have others := (List.forall_mem_cons.mp keeps).2
    rcases List.mem_cons.mp member with rfl | later
    · rcases here with ⟨absent, -⟩ | ⟨other, same, said⟩
      · rw [found] at absent
        cases absent
      · rw [found] at same
        cases same
        exact readAll_keeps others rest (sets record middle said)
    · exact ih others later rest

end Stylesheet.AttrField

theorem Stylesheet.numbersFrom?_ne_nil (text : List Char) : numbersFrom? text ≠ some [] := by
  intro found
  rw [numbersFrom?] at found
  split at found
  · cases found
  · split at found
    · cases found
    · split at found
      · cases found
      · obtain ⟨values, -, same⟩ := Option.map_eq_some_iff.mp found
        cases same

/-! ## What tables leave alone -/

/-- An area without an outline, whose visibility is not said. -/
structure Fill.Bare (area : Fill) : Prop where
  outline : area.hasOutline = false
  visibility : area.visibility = none

/-- A line without graphics that has dash lengths if it says so. -/
structure Line.Bare (stroke : Line) : Prop where
  dashes : stroke.dasharray ≠ some []
  following : stroke.graphicStroke = none
  filling : stroke.graphicFill = none
  visibility : stroke.visibility = none

/-- A mark with some name. -/
structure Mark.Bare (name : Option String) (symbol : Mark) : Prop where
  name : symbol.wellKnownName = name
  visibility : symbol.visibility = none

/-- A label for some property, whose fonts can be told apart. -/
structure Label.Bare (property : Option String) (label : Label) : Prop where
  property : label.property = property
  fonts : ∀ names ∈ label.font, ∀ name ∈ names, isListed name
  visibility : label.visibility = none

section Tables

variable {element : Element}

open AttrField (Keeps keeps_of readAll readAll_keeps readAll_sets)

theorem Fill.bare_of_readAll {area : Fill} (read : readAll element table {} = .ok area) :
    area.Bare := by
  have keeps : ∀ field ∈ table, Keeps element Fill.Bare field := by
    simp only [table, List.forall_mem_cons]
    refine ⟨?_, ?_, ?_, List.forall_mem_nil _⟩
    all_goals exact keeps_of fun _ _ _ _ _ bare => ⟨bare.outline, bare.visibility⟩
  exact readAll_keeps keeps read ⟨rfl, rfl⟩

theorem Line.bare_of_readAll {stroke : Line} (read : readAll element table {} = .ok stroke) :
    stroke.Bare := by
  have keeps : ∀ field ∈ table, Keeps element Line.Bare field := by
    simp only [table, List.forall_mem_cons]
    refine ⟨?_, ?_, ?_, ?_, ?_, keeps_of ?_, List.forall_mem_nil _⟩
    case refine_6 =>
      rintro value dashes stroke - listed ⟨-, following, filling, visible⟩
      refine ⟨?_, following, filling, visible⟩
      rintro ⟨⟩
      exact numbersFrom?_ne_nil _ listed
    all_goals
      exact keeps_of fun _ _ _ _ _ bare =>
        ⟨bare.dashes, bare.following, bare.filling, bare.visibility⟩
  exact readAll_keeps keeps read ⟨by simp, rfl, rfl, rfl⟩

theorem Mark.bare_of_readAll {name : Option String} {symbol : Mark}
    (read : readAll element table { wellKnownName := name } = .ok symbol) : symbol.Bare name := by
  have keeps : ∀ field ∈ table, Keeps element (Mark.Bare name) field := by
    simp only [table, List.forall_mem_cons]
    refine ⟨?_, ?_, ?_, ?_, ?_, ?_, ?_, ?_, ?_, List.forall_mem_nil _⟩
    all_goals exact keeps_of fun _ _ _ _ _ bare => ⟨bare.name, bare.visibility⟩
  exact readAll_keeps keeps read ⟨rfl, rfl⟩

theorem Icon.visibility_of_readAll {image : Icon} (read : readAll element table {} = .ok image) :
    image.visibility = none := by
  refine readAll_keeps (P := fun image : Icon => image.visibility = none) ?_ read rfl
  simp only [table, List.forall_mem_cons]
  refine ⟨?_, ?_, ?_, ?_, ?_, ?_, ?_, ?_, List.forall_mem_nil _⟩
  all_goals exact keeps_of fun _ _ _ _ _ held => held

/-- The image of an icon is the path of its element. -/
theorem Icon.image_of_readAll {image : Icon} (read : readAll element table {} = .ok image) :
    image.image = element.attributeText? fileAttribute := by
  have pictured {value : AttrValue} (found : element.attribute? fileAttribute = some value) :
      some value.shown = element.attributeText? fileAttribute := by
    rw [Element.attributeText?, found, Option.map_some]
  have keeps : ∀ field ∈ table, Keeps element
      (fun image => image.image = element.attributeText? fileAttribute) field := by
    simp only [table, List.forall_mem_cons]
    refine ⟨?_, ?_, ?_, ?_, ?_, ?_, ?_, keeps_of ?_, List.forall_mem_nil _⟩
    case refine_8 =>
      rintro value _ image found ⟨⟩ -
      exact pictured found
    all_goals exact keeps_of fun _ _ _ _ _ held => held
  cases found : element.attribute? fileAttribute with
  | none =>
    have absent : none = element.attributeText? fileAttribute := by
      rw [Element.attributeText?, found, Option.map_none]
    have held := readAll_keeps keeps read absent
    exact held
  | some value =>
    have member : AttrField.of fileAttribute .text Icon.image
        (fun v i => { i with image := some v }) ∈ table := by
      simp [table]
    have held := readAll_sets keeps member found (by rintro _ _ ⟨⟩; exact pictured found) read
    exact held

/-- An icon says something about overlap if its element does. -/
theorem Icon.isSome_allowOverlap_of_readAll {image : Icon} {value : AttrValue}
    (found : element.attribute? "allow-overlap" = some value)
    (read : readAll element table {} = .ok image) : image.allowOverlap.isSome := by
  have member : AttrField.of "allow-overlap" .flag Icon.allowOverlap
      (fun v i => { i with allowOverlap := some v }) ∈ table := by
    simp [table]
  refine readAll_sets (P := fun image : Icon => image.allowOverlap.isSome) ?_ member found ?_ read
  · simp only [table, List.forall_mem_cons]
    refine ⟨?_, ?_, ?_, ?_, keeps_of fun _ _ _ _ _ _ => rfl, ?_, ?_, ?_, List.forall_mem_nil _⟩
    all_goals exact keeps_of fun _ _ _ _ _ held => held
  · intro before after said
    obtain ⟨part, -, rfl⟩ := Option.map_eq_some_iff.mp said
    rfl

theorem Raster.visibility_of_readAll {cover : Raster}
    (read : readAll element table {} = .ok cover) : cover.visibility = none := by
  refine readAll_keeps (P := fun cover : Raster => cover.visibility = none) ?_ read rfl
  simp only [table, List.forall_mem_cons]
  exact ⟨keeps_of fun _ _ _ _ _ held => held, List.forall_mem_nil _⟩

theorem Label.bare_of_readAll {property : Option String} {label : Label}
    (read : readAll element table { property } = .ok label) : label.Bare property := by
  refine readAll_keeps (P := Label.Bare property) ?_ read ⟨rfl, by simp, rfl⟩
  simp only [table, List.forall_mem_cons]
  refine ⟨?_, ?_, ?_, ?_, keeps_of ?_, ?_, ?_, ?_, ?_, ?_, ?_, ?_, ?_, ?_, ?_, ?_, ?_, ?_, ?_, ?_,
    List.forall_mem_nil _⟩
  case refine_5 =>
    rintro value _ label - ⟨⟩ ⟨named, -, visible⟩
    refine ⟨named, ?_, visible⟩
    rintro _ ⟨⟩ name member
    exact isListed_of_mem_namesOf member
  all_goals exact keeps_of fun _ _ _ _ _ bare => ⟨bare.property, bare.fonts, bare.visibility⟩

end Tables

/-! ## What has been read is canonical -/

namespace Graphic

@[simp] theorem bind_canonical_map_ofFile (path : Option String) :
    (path.map ofFile).bind canonical = path.map ofFile := by
  cases path with
  | none => rfl
  | some path =>
    have kept := @returned_ofFile .direct path
    rwa [Carriage.settled_direct, id, returned_direct] at kept

/-- A graphic that stands for a path has one. -/
theorem exists_path?_map_ofFile (glyphs : Glyphs) (path : Option String) :
    ∃ path', path? glyphs (path.map ofFile) = .ok path' := by
  cases path with
  | none => exact ⟨none, rfl⟩
  | some path =>
    have found : path? glyphs (some (.icon { image := some path })) = .ok (some path) := rfl
    exact @exists_path?_returned .direct _ _ _ found

end Graphic

/-- Parts that are not said make an area canonical, whatever the path of its graphic. -/
theorem Fill.Bare.canonical_eq {area : Fill} (bare : area.Bare) (path : Option String) :
    Fill.canonical { area with graphicFill := path.map Graphic.ofFile } =
      { area with graphicFill := path.map Graphic.ofFile } := by
  obtain ⟨outline, visible⟩ := bare
  simp only [hasOutline, Bool.or_eq_false_iff, Option.isSome_eq_false_iff,
    Option.isNone_iff_eq_none] at outline
  cases area
  simp_all [canonical]

theorem Fill.Bare.outlineDasharray_eq {area : Fill} (bare : area.Bare) :
    area.outlineDasharray = none := by
  have outline := bare.outline
  simp only [hasOutline, Bool.or_eq_false_iff, Option.isSome_eq_false_iff,
    Option.isNone_iff_eq_none] at outline
  exact outline.2

theorem Line.Bare.canonical_following {stroke : Line} (bare : stroke.Bare) (path : Option String) :
    Line.canonical { stroke with graphicStroke := path.map Graphic.ofFile } =
      { stroke with graphicStroke := path.map Graphic.ofFile } := by
  obtain ⟨-, -, filling, visible⟩ := bare
  cases stroke
  simp_all [canonical]

theorem Line.Bare.canonical_filling {stroke : Line} (bare : stroke.Bare) (path : Option String) :
    Line.canonical { stroke with graphicFill := path.map Graphic.ofFile } =
      { stroke with graphicFill := path.map Graphic.ofFile } := by
  obtain ⟨-, following, -, visible⟩ := bare
  cases stroke
  simp_all [canonical]

theorem Mark.Bare.canonical_eq {name : Option String} {symbol : Mark} (bare : symbol.Bare name) :
    symbol.canonical = symbol := by
  obtain ⟨-, visible⟩ := bare
  cases symbol
  simp_all [canonical]

/-- An icon that has been read is known as one. -/
theorem Icon.canonical_of_readAll {element : Element} {image : Icon} (icon : drawsIcon element)
    (read : AttrField.readAll element table {} = .ok image) : image.canonical = .icon image := by
  have visible := visibility_of_readAll read
  have same : image.canonicalIcon = image := by
    cases image
    simp_all [canonicalIcon]
  rw [canonical, image_of_readAll read, same]
  rw [drawsIcon] at icon
  cases path : element.attributeText? fileAttribute with
  | some path' =>
    rw [path] at icon
    simp only [Option.isNone_iff_eq_none.mp icon]
  | none =>
    rw [path] at icon
    obtain ⟨value, found⟩ := Option.isSome_iff_exists.mp icon
    exact if_pos (isSome_allowOverlap_of_readAll found read)

theorem Label.isProperty_of_readProperty? {text : Option String} {property : String}
    (read : readProperty? text = some property) : isProperty property := by
  obtain ⟨inner, -, plain⟩ := Option.bind_eq_some_iff.mp read
  rw [plainProperty?_eq] at plain
  obtain ⟨same, kept⟩ := Option.filter_eq_some_iff.mp plain
  cases same
  exact kept

theorem Label.Bare.canonical_eq {text : Option String} {label : Label}
    (bare : label.Bare (readProperty? text)) (anchor : Option Anchor) :
    Label.canonical { label with anchor } = { label with anchor } := by
  obtain ⟨named, fonts, visible⟩ := bare
  have property : label.property.filter isProperty = label.property := by
    cases given : label.property with
    | none => rfl
    | some property =>
      rw [given] at named
      exact Option.filter_some_pos (isProperty_of_readProperty? named.symm)
  -- Names that a list may hold are read one by one as they are.
  have font : label.font.map (·.flatMap AttrForm.namesOf) = label.font := by
    cases given : label.font with
    | none => rfl
    | some names =>
      rw [Option.map_some, ← AttrForm.namesOf_intercalate_eq_flatMap,
        namesOf_intercalate (fonts names given)]
  cases label
  simp_all [canonical]

/-- A mark that a path points at can be written. -/
theorem Mark.exists_elements_of_path {symbol : Mark} {path : Option String}
    (named : symbol.wellKnownName = path.bind markOfPath?) (glyphs : Glyphs) :
    ∃ elements, (Symbolizer.mark symbol).elements glyphs = .ok elements := by
  apply symbol.exists_elements
  cases mark : path.bind markOfPath? with
  | none => exact ⟨none, by rw [Graphic.file?, named, mark]⟩
  | some name =>
    obtain ⟨source, -, pointed⟩ := Option.bind_eq_some_iff.mp mark
    obtain ⟨file, known⟩ := exists_glyphFile? pointed
    exact ⟨some (glyphs.path file),
      by simp only [Graphic.file?, named, mark, Glyphs.resolve_of_glyphFile? known]; rfl⟩

/-! ## Reading -/

/-- A symbolizer that can be written and is read as itself, if its numbers are finite. -/
structure Symbolizer.Kept (glyphs : Glyphs) (symbolizer : Symbolizer) : Prop where
  canonical : symbolizer.canonical = [symbolizer]
  written : ∃ elements, symbolizer.elements glyphs = .ok elements
  sound (finite : symbolizer.hasFiniteSpans) : symbolizer.isSound

section Reading

variable {glyphs : Glyphs} {element : Element}

theorem Fill.kept_of_ofElement {area : Fill} (read : (ofElement element).result = .ok area) :
    (Symbolizer.fill area).Kept glyphs := by
  simp only [ofElement, Traced.result_bind, Traced.result_ofExcept] at read
  obtain ⟨plain, fields, same⟩ := bind_eq_ok_iff.mp read
  have bare := bare_of_readAll fields
  cases same
  refine ⟨?_, Fill.exists_elements _ (Graphic.exists_path?_map_ofFile glyphs _), fun _ => ?_⟩
  · have noOutline : hasOutline { plain with
        graphicFill := (element.attributeText? fileAttribute).map Graphic.ofFile } = false :=
      bare.outline
    rw [Symbolizer.canonical, bare.canonical_eq, noOutline]
    rfl
  · rw [Symbolizer.isSound, bare.outlineDasharray_eq]
    rfl

theorem Line.kept_of_ofElement {stroke : Line} (read : (ofElement element).result = .ok stroke) :
    (Symbolizer.line stroke).Kept glyphs := by
  simp only [ofElement, Traced.result_bind, Traced.result_ofExcept] at read
  obtain ⟨plain, fields, same⟩ := bind_eq_ok_iff.mp read
  have bare := bare_of_readAll fields
  have found := Graphic.exists_path?_map_ofFile glyphs (element.attributeText? fileAttribute)
  simp only [Traced.result_noteAll, ok_bind, Traced.result_pure] at same
  obtain rfl := Except.ok.inj same
  split
  · refine ⟨?_, Line.exists_elements _ ?_, fun finite => soundDashes_of_ne_nil bare.dashes finite⟩
    · rw [Symbolizer.canonical, bare.canonical_filling]
    · simpa [graphic?, bare.following] using found
  · refine ⟨?_, Line.exists_elements _ ?_, fun finite => soundDashes_of_ne_nil bare.dashes finite⟩
    · rw [Symbolizer.canonical, bare.canonical_following]
    · simpa [graphic?, bare.filling] using found

/-- What has been read from markers, as an icon or as a mark. -/
theorem Stylesheet.markerOfElement_cases {symbolizer : Symbolizer}
    (read : (markerOfElement element).result = .ok symbolizer) :
    if drawsIcon element then
      ∃ image, AttrField.readAll element Icon.table {} = .ok image ∧ symbolizer = .icon image
    else ∃ symbol, AttrField.readAll element Mark.table
        { wellKnownName := (element.attributeText? fileAttribute).bind markOfPath? } = .ok symbol ∧
      symbolizer = .mark symbol := by
  rw [markerOfElement] at read
  split at read
  all_goals
    rename_i icon
    rw [Traced.result_bind, Traced.result_ofExcept] at read
    obtain ⟨part, fields, same⟩ := bind_eq_ok_iff.mp read
  · rw [if_pos icon]
    exact ⟨part, fields, (Except.ok.inj same).symm⟩
  · rw [if_neg icon]
    exact ⟨part, fields, (Except.ok.inj same).symm⟩

theorem Stylesheet.kept_of_markerOfElement {symbolizer : Symbolizer}
    (read : (markerOfElement element).result = .ok symbolizer) : symbolizer.Kept glyphs := by
  have cases_ := markerOfElement_cases read
  split at cases_
  · rename_i icon
    obtain ⟨image, fields, rfl⟩ := cases_
    refine ⟨?_, ⟨_, rfl⟩, fun finite => finite⟩
    rw [Symbolizer.canonical, Icon.canonical_of_readAll icon fields]
  · obtain ⟨symbol, fields, rfl⟩ := cases_
    have bare := Mark.bare_of_readAll fields
    refine ⟨?_, Mark.exists_elements_of_path bare.name glyphs, fun finite => finite⟩
    rw [Symbolizer.canonical, bare.canonical_eq]

theorem Raster.kept_of_ofElement {cover : Raster} (read : (ofElement element).result = .ok cover) :
    (Symbolizer.raster cover).Kept glyphs := by
  simp only [ofElement, Traced.result_bind, Traced.result_ofExcept] at read
  obtain ⟨plain, fields, same⟩ := bind_eq_ok_iff.mp read
  have visible := visibility_of_readAll fields
  cases same
  refine ⟨?_, ⟨_, rfl⟩, fun finite => finite⟩
  rw [Symbolizer.canonical, canonical, visible, shownOpacity_none]
  cases cover
  simp_all

theorem Label.kept_of_ofElement {label : Label} (read : (ofElement element).result = .ok label) :
    (Symbolizer.text label).Kept glyphs := by
  rw [result_ofElement] at read
  obtain ⟨plain, fields, anchored⟩ := bind_eq_ok_iff.mp read
  obtain ⟨anchor, -, same⟩ := bind_eq_ok_iff.mp anchored
  have bare := bare_of_readAll fields
  cases same
  refine ⟨?_, ⟨_, rfl⟩, fun finite => finite⟩
  rw [Symbolizer.canonical, bare.canonical_eq]

/-- Every symbolizer that is read from an element is kept. -/
theorem Symbolizer.kept_of_ofElement {symbolizer : Symbolizer}
    (read : (ofElement element).result = .ok symbolizer) : symbolizer.Kept glyphs := by
  rw [ofElement] at read
  cases tag : (Vocabulary.ofKeyword? element.name : Option DrawingTag) with
  | none =>
    rw [tag] at read
    cases read
  | some tag' =>
    rw [tag] at read
    cases tag' <;> simp only [Traced.result_bind] at read
    case markers => exact kept_of_markerOfElement read
    all_goals
      obtain ⟨part, done, same⟩ := bind_eq_ok_iff.mp read
      obtain rfl := Except.ok.inj same
    case polygon | polygonPattern => exact Fill.kept_of_ofElement done
    case line | linePattern => exact Line.kept_of_ofElement done
    case raster => exact Raster.kept_of_ofElement done
    case text => exact Label.kept_of_ofElement done

end Reading

namespace Symbolizer

/-! ## Writing again -/

/-- One symbolizer is read from one element. -/
theorem eq_singleton_of_ofElementsFrom {index : Nat} {elements : List Element}
    {symbolizer : Symbolizer} (read : (ofElementsFrom index elements).result = .ok [symbolizer]) :
    ∃ single, elements = [single] ∧ (ofElement single).result = .ok symbolizer := by
  match elements with
  | [] => cases read
  | element :: others =>
    simp only [ofElementsFrom, Traced.result_bind, Traced.result_mapProblem] at read
    obtain ⟨first, here, more⟩ := bind_eq_ok_iff.mp read
    obtain ⟨rest, there, same⟩ := bind_eq_ok_iff.mp more
    obtain ⟨rfl, rfl⟩ := List.cons.inj (Except.ok.inj same)
    cases others with
    | nil => exact ⟨element, rfl, mapError_eq_ok_iff.mp here⟩
    | cons second others =>
      simp only [ofElementsFrom, Traced.result_bind] at there
      obtain ⟨_, _, more⟩ := bind_eq_ok_iff.mp there
      obtain ⟨_, _, same⟩ := bind_eq_ok_iff.mp more
      cases same

/-- Every symbolizer that can be read is written as one element, which is read as the same
symbolizer. -/
theorem ofElement_elements_of_ofElement (glyphs : Glyphs) {element : Element}
    {symbolizer : Symbolizer} (read : (ofElement element).result = .ok symbolizer)
    (finite : symbolizer.hasFiniteSpans) :
    ∃ single, symbolizer.elements glyphs = .ok [single] ∧
      (ofElement single).result = .ok symbolizer := by
  have kept : symbolizer.Kept glyphs := kept_of_ofElement read
  obtain ⟨elements, built⟩ := kept.written
  have again := result_ofElements_direct built (kept.sound finite)
  rw [symbolizer.returned_direct, kept.canonical] at again
  obtain ⟨single, rfl, done⟩ := eq_singleton_of_ofElementsFrom again
  exact ⟨single, built, done⟩

/-- Markers with a height but no width, whose glyph lies in a directory of its own. -/
def looseMarkers : Element :=
  let markers : Element := { name := "MarkersSymbolizer" }
  (((markers.withAttribute "height" (.text " 1 ")).withAttribute "transform"
    (.text " rotate( 0 ) ")).withAttribute "avoid-edges" (.text " 1")).withAttribute "file"
    (.text "icons\\star.svg")

theorem ofElement_elements_looseMarkers :
    let star : Symbolizer := .mark {
      wellKnownName := some "Star"
      radius := some .one
      avoidEdges := some true
      rotate := some .zero }
    (ofElement looseMarkers).result = .ok star ∧ star.hasFiniteSpans ∧
      ∃ single, star.elements { directory := some "glyphs/" } = .ok [single] ∧
        (ofElement single).result = .ok star := by
  intro star
  have read : (ofElement looseMarkers).result = .ok star :=
    Expression.eq_ok_of_toOption (by decide +kernel)
  have finite : star.hasFiniteSpans := by decide
  exact ⟨read, finite, ofElement_elements_of_ofElement _ read finite⟩

end Symbolizer

end CartoStyle
