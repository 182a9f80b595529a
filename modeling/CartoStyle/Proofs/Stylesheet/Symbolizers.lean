import CartoStyle.Proofs.Stylesheet.Returned
import CartoStyle.Stylesheet.Rule

/-!
# The symbolizers of a rule read back

The elements of a rule's symbolizers, one after another, are read back as what is left of each
symbolizer (`Symbolizer.result_ofElementsFrom_drawings`). The reader accepts them only if no list of
dash lengths is empty (`Symbolizer.isSound_of_read`), so what has been read back is as it must be to
be written again.
-/

namespace CartoStyle

open Stylesheet
open Xml (AttrValue Element)

variable {way : Carriage} {glyphs : Glyphs} {arrive : Element → Element}

namespace Symbolizer

/-! ## Reading several elements -/

theorem result_ofElementsFrom_append (index : Nat) (front back : List Element) :
    (ofElementsFrom index (front ++ back)).result = do
      let first ← (ofElementsFrom index front).result
      let second ← (ofElementsFrom (index + front.length) back).result
      return first ++ second := by
  induction front generalizing index with
  | nil => simp [ofElementsFrom]
  | cons element front ih =>
    have place : index + 1 + front.length = index + (element :: front).length := by
      rw [List.length_cons]
      omega
    rw [List.cons_append, ofElementsFrom, ofElementsFrom, ← place]
    simp only [Traced.result_bind, Traced.result_mapProblem, Traced.result_pure, ih, bind_assoc,
      pure_bind]
    rfl

theorem result_ofElementsFrom_singleton (index : Nat) {element : Element} {symbolizer : Symbolizer}
    (read : (ofElement element).result = .ok symbolizer) :
    (ofElementsFrom index [element]).result = .ok [symbolizer] := by
  simp [ofElementsFrom, read, mapError_eq_ok_iff.mpr]

/-- Every element can be read if all of them can. -/
theorem exists_ofElement_of_mem {index : Nat} {elements : List Element}
    {symbolizers : List Symbolizer}
    (read : (ofElementsFrom index elements).result = .ok symbolizers) {element : Element}
    (member : element ∈ elements) : ∃ symbolizer, (ofElement element).result = .ok symbolizer := by
  induction elements generalizing index symbolizers with
  | nil => cases member
  | cons first others ih =>
    simp only [ofElementsFrom, Traced.result_bind, Traced.result_mapProblem] at read
    obtain ⟨symbolizer, here, rest⟩ := bind_eq_ok_iff.mp read
    obtain ⟨symbolizers, there, _⟩ := bind_eq_ok_iff.mp rest
    rcases List.mem_cons.mp member with rfl | later
    · exact ⟨symbolizer, mapError_eq_ok_iff.mp here⟩
    · exact ih there later

/-! ## The elements of one symbolizer -/

/-- The path of the glyph of a mark stands for its name. -/
theorem map_markOfPath?_of_file? {symbol : Mark} {path : Option String}
    (found : Graphic.file? glyphs (.mark symbol) = .ok path) :
    path.map markOfPath? = symbol.wellKnownName.map some := by
  rw [Graphic.file?] at found
  cases named : symbol.wellKnownName with
  | none =>
    rw [named] at found
    cases found
    rfl
  | some name =>
    rw [named] at found
    obtain ⟨file, resolved, rfl⟩ := map_eq_ok_iff.mp found
    obtain ⟨glyph, known, rfl⟩ := Glyphs.resolve_eq_ok_iff.mp resolved
    simp [markOfPath?_path glyphs known]

/-- What is written for a symbolizer, kind by kind. -/
theorem elements_cases {symbolizer : Symbolizer} {elements : List Element}
    (built : symbolizer.elements glyphs = .ok elements) :
    match symbolizer with
    | .fill area => ∃ path, Graphic.path? glyphs area.graphicFill = .ok path ∧
        elements = area.polygonWith path :: (if area.hasOutline then [area.outline] else [])
    | .line stroke => ∃ path, Graphic.path? glyphs stroke.graphic? = .ok path ∧
        elements = [stroke.elementWith path]
    | .mark symbol => ∃ path, Graphic.file? glyphs (.mark symbol) = .ok path ∧
        elements = [symbol.elementWith path]
    | .icon image => elements = [image.element]
    | .raster cover => elements = [cover.element]
    | .text label => elements = [label.element] := by
  cases symbolizer with
  | fill area =>
    obtain ⟨polygon, drawn, same⟩ := bind_eq_ok_iff.mp built
    rw [Fill.polygon_eq] at drawn
    obtain ⟨path, found, rfl⟩ := map_eq_ok_iff.mp drawn
    exact ⟨path, found, (Except.ok.inj same).symm⟩
  | line stroke =>
    obtain ⟨element, drawn, same⟩ := bind_eq_ok_iff.mp built
    rw [Line.element_eq] at drawn
    obtain ⟨path, found, rfl⟩ := map_eq_ok_iff.mp drawn
    exact ⟨path, found, (Except.ok.inj same).symm⟩
  | mark symbol =>
    obtain ⟨element, drawn, same⟩ := bind_eq_ok_iff.mp built
    rw [Mark.element_eq] at drawn
    obtain ⟨path, found, rfl⟩ := map_eq_ok_iff.mp drawn
    exact ⟨path, found, (Except.ok.inj same).symm⟩
  | icon image => exact (Except.ok.inj built).symm
  | raster cover => exact (Except.ok.inj built).symm
  | text label => exact (Except.ok.inj built).symm

/-- An element among those that a symbolizer is written as. -/
inductive Draws (glyphs : Glyphs) : Symbolizer → Element → Prop
  | polygon (area : Fill) {path : Option String}
      (found : Graphic.path? glyphs area.graphicFill = .ok path) :
      Draws glyphs (.fill area) (area.polygonWith path)
  | outline (area : Fill) (outlined : area.hasOutline) : Draws glyphs (.fill area) area.outline
  | line (stroke : Line) {path : Option String}
      (found : Graphic.path? glyphs stroke.graphic? = .ok path) :
      Draws glyphs (.line stroke) (stroke.elementWith path)
  | mark (symbol : Mark) {path : Option String}
      (found : Graphic.file? glyphs (.mark symbol) = .ok path) :
      Draws glyphs (.mark symbol) (symbol.elementWith path)
  | icon (image : Icon) : Draws glyphs (.icon image) image.element
  | raster (cover : Raster) : Draws glyphs (.raster cover) cover.element
  | text (label : Label) : Draws glyphs (.text label) label.element

theorem draws_of_mem_elements {symbolizer : Symbolizer} {elements : List Element}
    (built : symbolizer.elements glyphs = .ok elements) {element : Element}
    (member : element ∈ elements) : Draws glyphs symbolizer element := by
  have cases_ := elements_cases built
  cases symbolizer with
  | fill area =>
    obtain ⟨path, found, rfl⟩ := cases_
    rcases List.mem_cons.mp member with rfl | outlined
    · exact .polygon area found
    · split at outlined
      · rename_i outline
        rw [List.mem_singleton.mp outlined]
        exact .outline area outline
      · cases outlined
  | line stroke =>
    obtain ⟨path, found, rfl⟩ := cases_
    rw [List.mem_singleton.mp member]
    exact .line stroke found
  | mark symbol =>
    obtain ⟨path, found, rfl⟩ := cases_
    rw [List.mem_singleton.mp member]
    exact .mark symbol found
  | icon image =>
    obtain ⟨rfl⟩ : elements = [image.element] := cases_
    rw [List.mem_singleton.mp member]
    exact .icon image
  | raster cover =>
    obtain ⟨rfl⟩ : elements = [cover.element] := cases_
    rw [List.mem_singleton.mp member]
    exact .raster cover
  | text label =>
    obtain ⟨rfl⟩ : elements = [label.element] := cases_
    rw [List.mem_singleton.mp member]
    exact .text label

/-- The elements of a symbolizer have the names of elements that draw. -/
theorem Draws.exists_tag {symbolizer : Symbolizer} {element : Element}
    (draws : symbolizer.Draws glyphs element) : ∃ tag : DrawingTag, element.name = keyword tag := by
  cases draws with
  | polygon area => exact ⟨_, area.name_polygonWith _⟩
  | outline area => exact ⟨.line, rfl⟩
  | line stroke => exact ⟨_, stroke.name_elementWith _⟩
  | mark symbol => exact ⟨_, symbol.name_elementWith _⟩
  | icon image => exact ⟨_, image.name_element⟩
  | raster cover => exact ⟨_, cover.name_element⟩
  | text label => exact ⟨_, label.name_element⟩

/-- The elements of a symbolizer are read back as what is left of it. -/
theorem result_ofElementsFrom_elements {symbolizer : Symbolizer} {elements : List Element}
    (built : symbolizer.elements glyphs = .ok elements) (sound : symbolizer.isSound)
    (carries : ∀ element ∈ elements, way.Carries element (arrive element)) (index : Nat) :
    (ofElementsFrom index (elements.map arrive)).result = .ok (symbolizer.returned way) := by
  have cases_ := elements_cases built
  cases symbolizer with
  | fill area =>
    obtain ⟨path, found, rfl⟩ := cases_
    have first := result_ofElementsFrom_singleton index (Fill.ofElement_polygonWith
      (Graphic.returned_of_path? found) (carries _ (List.mem_cons_self ..)))
    rw [returned]
    cases outlined : area.hasOutline with
    | false => exact first
    | true =>
      rw [outlined] at carries
      have second := result_ofElementsFrom_singleton (index + 1) (Fill.ofElement_outline sound
        (carries _ (List.mem_cons_of_mem _ (List.mem_cons_self ..))))
      have both := result_ofElementsFrom_append index [arrive (area.polygonWith path)]
        [arrive area.outline]
      rw [first, List.length_singleton, second] at both
      exact both
  | line stroke =>
    obtain ⟨path, found, rfl⟩ := cases_
    exact result_ofElementsFrom_singleton index (Line.ofElement_elementWith sound
      (Graphic.returned_of_path? found) (carries _ (List.mem_cons_self ..)))
  | mark symbol =>
    obtain ⟨path, found, rfl⟩ := cases_
    exact result_ofElementsFrom_singleton index (Mark.ofElement_elementWith sound
      (map_markOfPath?_of_file? found) (carries _ (List.mem_cons_self ..)))
  | icon image =>
    obtain ⟨rfl⟩ : elements = [image.element] := cases_
    exact result_ofElementsFrom_singleton index
      (Icon.ofElement_element sound (carries _ (List.mem_cons_self ..)))
  | raster cover =>
    obtain ⟨rfl⟩ : elements = [cover.element] := cases_
    exact result_ofElementsFrom_singleton index
      (Raster.ofElement_element (carries _ (List.mem_cons_self ..)))
  | text label =>
    obtain ⟨rfl⟩ : elements = [label.element] := cases_
    exact result_ofElementsFrom_singleton index
      (Label.ofElement_element (carries _ (List.mem_cons_self ..)))

/-! ## Empty lists of dash lengths -/

/-- Dash lengths and rotations are finite numbers. -/
def hasFiniteSpans : Symbolizer → Bool
  | .fill area => area.outlineDasharray.all (·.all Binary64.isFinite)
  | .line stroke => stroke.dasharray.all (·.all Binary64.isFinite)
  | .mark symbol => soundRotation symbol.rotate
  | .icon image => soundRotation image.rotate
  | .raster _ | .text _ => true

end Symbolizer

/-- What is read from the element of a line is read by the table of lines. -/
theorem Line.readAll_of_ofElement {element : Element}
    (name : element.name = keyword DrawingTag.line ∨ element.name = keyword DrawingTag.linePattern)
    {symbolizer : Symbolizer} (read : (Symbolizer.ofElement element).result = .ok symbolizer) :
    ∃ stroke, AttrField.readAll element table {} = .ok stroke := by
  have line : ∃ stroke, (Line.ofElement element).result = .ok stroke := by
    rcases name with name | name
    all_goals
      rw [Symbolizer.ofElement, name, Vocabulary.ofKeyword?_keyword] at read
      simp only [Traced.result_bind] at read
      obtain ⟨stroke, done, _⟩ := bind_eq_ok_iff.mp read
      exact ⟨stroke, done⟩
  obtain ⟨stroke, done⟩ := line
  simp only [Line.ofElement, Traced.result_bind, Traced.result_ofExcept] at done
  obtain ⟨fields, read, _⟩ := bind_eq_ok_iff.mp done
  exact ⟨fields, read⟩

/-- An element that is read as a line has no empty list of dash lengths. -/
theorem Line.dasharray_ne_nil {stroke : Line} {written arrived : Element}
    (has : Written written table stroke) (carries : way.Carries written arrived)
    (name : written.name = keyword DrawingTag.line ∨ written.name = keyword DrawingTag.linePattern)
    {symbolizer : Symbolizer} (read : (Symbolizer.ofElement arrived).result = .ok symbolizer) :
    stroke.dasharray ≠ some [] := by
  intro empty
  have looked : ∀ listed ∈ AttrField.names table, listed ∈ consulted written := by
    intro listed member
    rcases name with name | name
    all_goals
      rw [consulted_of_name name]
      exact List.mem_cons_of_mem _ member
  have dashes : AttrField.of "stroke-dasharray" .numbers Line.dasharray
      (fun v l => { l with dasharray := some v }) ∈ table := by
    simp [table]
  have found := (carries.shows has looked) _ dashes
  simp only [AttrField.of, empty, Option.map_some] at found
  rw [← carries.name_eq] at name
  obtain ⟨fields, done⟩ := readAll_of_ofElement name read
  obtain ⟨before, after, said⟩ := AttrField.exists_read_of_readAll done dashes found
  simp only [AttrField.of, way.read_numbers_nil] at said
  cases said

theorem soundDashes_of_ne_nil {dashes : Option (List Binary64)} (nonempty : dashes ≠ some [])
    (finite : dashes.all (·.all Binary64.isFinite)) : soundDashes dashes := by
  cases dashes with
  | none => rfl
  | some lengths =>
    have some_ : lengths ≠ [] := fun empty => nonempty (congrArg some empty)
    simpa [soundDashes, some_] using finite

namespace Symbolizer

/-- What is read back was sound, as far as its numbers are finite. -/
theorem isSound_of_read {symbolizer : Symbolizer} {elements : List Element}
    (built : symbolizer.elements glyphs = .ok elements) (finite : symbolizer.hasFiniteSpans)
    (carries : ∀ element ∈ elements, way.Carries element (arrive element)) {index : Nat}
    {symbolizers : List Symbolizer}
    (read : (ofElementsFrom index (elements.map arrive)).result = .ok symbolizers) :
    symbolizer.isSound := by
  have each : ∀ element ∈ elements, ∃ one, (ofElement (arrive element)).result = .ok one :=
    fun element member => exists_ofElement_of_mem read (List.mem_map_of_mem member)
  have cases_ := elements_cases built
  cases symbolizer with
  | fill area =>
    obtain ⟨path, found, rfl⟩ := cases_
    apply soundDashes_of_ne_nil _ finite
    intro empty
    have outlined : area.hasOutline := by simp [Fill.hasOutline, empty]
    have member : area.outline ∈ area.polygonWith path ::
        (if area.hasOutline then [area.outline] else []) := by
      simp [outlined]
    obtain ⟨one, done⟩ := each _ member
    exact Line.dasharray_ne_nil area.written_outline (carries _ member) (.inl rfl) done empty
  | line stroke =>
    obtain ⟨path, found, rfl⟩ := cases_
    apply soundDashes_of_ne_nil _ finite
    obtain ⟨one, done⟩ := each _ (List.mem_cons_self ..)
    have name : (stroke.elementWith path).name = keyword DrawingTag.line ∨
        (stroke.elementWith path).name = keyword DrawingTag.linePattern := by
      rw [Line.name_elementWith, Line.tag]
      split
      · exact .inr rfl
      · exact .inl rfl
    have nonempty : stroke.faded.dasharray ≠ some [] :=
      Line.dasharray_ne_nil (stroke.written_elementWith path) (carries _ (List.mem_cons_self ..))
        name done
    exact nonempty
  | mark symbol => exact finite
  | icon image => exact finite
  | raster cover => rfl
  | text label => rfl

/-! ## All symbolizers of a rule -/

theorem drawings_cons_eq_ok {index : Nat} {symbolizer : Symbolizer} {others : List Symbolizer}
    {elements : List Element}
    (built : Rule.drawings glyphs index (symbolizer :: others) = .ok elements) :
    ∃ first rest, symbolizer.elements glyphs = .ok first ∧
      Rule.drawings glyphs (index + 1) others = .ok rest ∧ first ++ rest = elements := by
  obtain ⟨first, here, more⟩ := bind_eq_ok_iff.mp built
  obtain ⟨rest, there, same⟩ := bind_eq_ok_iff.mp more
  exact ⟨first, rest, mapError_eq_ok_iff.mp here, there, Except.ok.inj same⟩

/-- Symbolizers are written if each of them is. -/
theorem exists_drawings_iff {index : Nat} {symbolizers : List Symbolizer} :
    (∃ elements, Rule.drawings glyphs index symbolizers = .ok elements) ↔
      ∀ symbolizer ∈ symbolizers, ∃ elements, symbolizer.elements glyphs = .ok elements := by
  induction symbolizers generalizing index with
  | nil => simp [Rule.drawings]
  | cons symbolizer others ih =>
    rw [List.forall_mem_cons, ← @ih (index + 1)]
    constructor
    · rintro ⟨elements, built⟩
      obtain ⟨first, rest, here, there, -⟩ := drawings_cons_eq_ok built
      exact ⟨⟨first, here⟩, rest, there⟩
    · rintro ⟨⟨first, here⟩, rest, there⟩
      exact ⟨first ++ rest, by rw [Rule.drawings, here, there]; rfl⟩

/-- Every element that draws is one of a symbolizer. -/
theorem exists_of_mem_drawings {index : Nat} {symbolizers : List Symbolizer}
    {elements : List Element}
    (drawn : Rule.drawings glyphs index symbolizers = .ok elements) {element : Element}
    (member : element ∈ elements) :
    ∃ symbolizer ∈ symbolizers, ∃ own, symbolizer.elements glyphs = .ok own ∧ element ∈ own := by
  induction symbolizers generalizing index elements with
  | nil =>
    cases drawn
    cases member
  | cons symbolizer others ih =>
    obtain ⟨first, rest, here, there, rfl⟩ := drawings_cons_eq_ok drawn
    rcases List.mem_append.mp member with inside | later
    · exact ⟨symbolizer, List.mem_cons_self .., first, here, inside⟩
    · obtain ⟨other, present, own, built, inside⟩ := ih there later
      exact ⟨other, List.mem_cons_of_mem _ present, own, built, inside⟩

/-- The elements of a symbolizer stand together among those of its rule. -/
theorem exists_infix_drawings {index : Nat} {symbolizers : List Symbolizer}
    {elements : List Element} (drawn : Rule.drawings glyphs index symbolizers = .ok elements)
    {symbolizer : Symbolizer} (member : symbolizer ∈ symbolizers) :
    ∃ own, symbolizer.elements glyphs = .ok own ∧ own <:+: elements := by
  induction symbolizers generalizing index elements with
  | nil => cases member
  | cons first others ih =>
    obtain ⟨front, rest, here, there, rfl⟩ := drawings_cons_eq_ok drawn
    rcases List.mem_cons.mp member with rfl | later
    · exact ⟨front, here, (List.prefix_append front rest).isInfix⟩
    · obtain ⟨own, built, inside⟩ := ih there later
      exact ⟨own, built, inside.trans (List.suffix_append front rest).isInfix⟩

/-- The elements of the symbolizers of a rule are read back as what is left of each. -/
theorem result_ofElementsFrom_drawings {start : Nat} {symbolizers : List Symbolizer}
    {elements : List Element} (built : Rule.drawings glyphs start symbolizers = .ok elements)
    (sound : ∀ symbolizer ∈ symbolizers, symbolizer.isSound)
    (carries : ∀ element ∈ elements, way.Carries element (arrive element)) (index : Nat) :
    (ofElementsFrom index (elements.map arrive)).result =
      .ok (symbolizers.flatMap (returned way)) := by
  induction symbolizers generalizing start elements index with
  | nil =>
    cases built
    rfl
  | cons symbolizer others ih =>
    obtain ⟨first, rest, here, there, rfl⟩ := drawings_cons_eq_ok built
    have one := result_ofElementsFrom_elements here (sound _ (List.mem_cons_self ..))
      (fun element member => carries element (List.mem_append_left _ member)) index
    have more := ih there (fun other member => sound other (List.mem_cons_of_mem _ member))
      (fun element member => carries element (List.mem_append_right _ member))
      (index + (first.map arrive).length)
    rw [List.map_append, result_ofElementsFrom_append, one, more]
    rfl

/-- If they are read back, all of them were sound, as far as their numbers are finite. -/
theorem isSound_of_read_drawings {start : Nat} {symbolizers : List Symbolizer}
    {elements : List Element} (built : Rule.drawings glyphs start symbolizers = .ok elements)
    (finite : ∀ symbolizer ∈ symbolizers, symbolizer.hasFiniteSpans)
    (carries : ∀ element ∈ elements, way.Carries element (arrive element)) {index : Nat}
    {read : List Symbolizer}
    (done : (ofElementsFrom index (elements.map arrive)).result = .ok read) :
    ∀ symbolizer ∈ symbolizers, symbolizer.isSound := by
  induction symbolizers generalizing start elements index read with
  | nil => exact fun _ member => nomatch member
  | cons symbolizer others ih =>
    obtain ⟨first, rest, here, there, rfl⟩ := drawings_cons_eq_ok built
    rw [List.map_append, result_ofElementsFrom_append] at done
    obtain ⟨one, front, more⟩ := bind_eq_ok_iff.mp done
    obtain ⟨two, back, _⟩ := bind_eq_ok_iff.mp more
    intro candidate member
    rcases List.mem_cons.mp member with rfl | later
    · exact isSound_of_read here (finite _ (List.mem_cons_self ..))
        (fun element present => carries element (List.mem_append_left _ present)) front
    · exact ih there (fun other present => finite other (List.mem_cons_of_mem _ present))
        (fun element present => carries element (List.mem_append_right _ present)) back
        candidate later

end Symbolizer

end CartoStyle
