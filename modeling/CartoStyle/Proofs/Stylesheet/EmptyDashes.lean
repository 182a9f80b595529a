import CartoStyle.Proofs.Stylesheet.Canonical
import CartoStyle.Proofs.Stylesheet.ReadFault

/-!
# Written but not read

An empty list of dash lengths is written as an empty text, which is no list of dash lengths. Nothing
else that is written for a symbolizer is refused by the reader, and this is refused where it stands
(`Symbolizer.result_ofElements_elements`).
-/

namespace CartoStyle

open Stylesheet
open Xml (AttrValue Element)

/-! ## What is written can be interpreted -/

/-- Whatever is written in a form can be read in it. -/
def Stylesheet.AttrForm.Reads {α : Type} (form : AttrForm α) : Prop :=
  ∀ part, ∃ read, form.read (form.write part) = some read

/-- A field whose form can be read is not at fault in an element that was written. -/
theorem Stylesheet.AttrField.not_fault_of {σ α : Type} {name : String} {form : AttrForm α}
    {get : σ → Option α} {set : α → σ → σ} {element : Element} {record : σ} (reads : form.Reads)
    (written : element.attribute? name = (get record).map form.write) (problem : Problem) :
    ¬Fault element (of name form get set) problem := by
  rintro ⟨value, found, rejected, -⟩
  obtain ⟨part, -, rfl⟩ := Option.map_eq_some_iff.mp (written.symm.trans found)
  obtain ⟨read, said⟩ := reads part
  have refused := rejected record
  simp only [of, said] at refused
  cases refused

/-- What arrives by the direct way can be read. -/
theorem Stylesheet.AttrForm.reads_of_arrives {α : Type} {form : AttrForm α}
    (arrives : ∀ part, form.Arrives Carriage.direct.value (some part) (some part)) : form.Reads :=
  fun part => (arrives part).imp fun _ both => both.2

/-! ## Lines -/

namespace Line

/-- An empty list of dash lengths is the first fault of the element of a line. -/
theorem tableFault_of_dasharray_nil {stroke : Line} {element : Element}
    (written : Written element table stroke) (empty : stroke.dasharray = some []) :
    AttrField.TableFault table element
      (.invalidAttribute element.name "stroke-dasharray" "") := by
  have text : AttrForm.text.Reads := fun part => ⟨part, rfl⟩
  have number : AttrForm.number.Reads := fun part => ⟨part, rfl⟩
  have cap : (AttrForm.keyword LineCap).Reads := AttrForm.reads_of_arrives fun value =>
    Carriage.direct.arrives_keyword isVisible_lineCap (some value)
  have join : (AttrForm.keyword LineJoin).Reads := AttrForm.reads_of_arrives fun value =>
    Carriage.direct.arrives_keyword isVisible_lineJoin (some value)
  simp only [Written, table, List.forall_mem_cons] at written
  obtain ⟨color, opacity, width, capped, joined, dashed, -⟩ := written
  simp only [table, AttrField.tableFault_cons_iff]
  refine .inr ⟨AttrField.not_fault_of text color, ?_⟩
  refine .inr ⟨AttrField.not_fault_of number opacity, ?_⟩
  refine .inr ⟨AttrField.not_fault_of number width, ?_⟩
  refine .inr ⟨AttrField.not_fault_of cap capped, ?_⟩
  refine .inr ⟨AttrField.not_fault_of join joined, ?_⟩
  have empty_text : element.attribute? "stroke-dasharray" = some (.text "") :=
    dashed.trans (congrArg (Option.map AttrForm.numbers.write) empty)
  have rejected : AttrForm.numbers.read (.text "") = none := Carriage.direct.read_numbers_nil
  exact .inl ⟨.text "", empty_text, fun _ => by simp [AttrField.of, rejected], rfl⟩

/-- The element of a line whose list of dash lengths is empty is refused. -/
theorem result_ofElement_of_dasharray_nil {stroke : Line} {element : Element}
    (written : Written element table stroke) (empty : stroke.dasharray = some [])
    (name : element.name = keyword DrawingTag.line ∨
      element.name = keyword DrawingTag.linePattern) :
    (Symbolizer.ofElement element).result =
      .error (.invalidAttribute element.name "stroke-dasharray" "") := by
  apply Symbolizer.result_ofElement_eq_error_iff.mpr
  have fault := tableFault_of_dasharray_nil written empty
  rcases name with name | name
  all_goals
    rw [Symbolizer.ReadFault]
    simp only [name, Vocabulary.ofKeyword?_keyword]
    rwa [name] at fault

end Line

theorem Line.tag_eq (stroke : Line) : keyword stroke.tag = keyword DrawingTag.line ∨
    keyword stroke.tag = keyword DrawingTag.linePattern := by
  rw [tag]
  split
  · exact .inr rfl
  · exact .inl rfl

/-! ## Symbolizers -/

namespace Symbolizer

/-- The problem of the reader with the elements of a symbolizer, if a list of dash lengths is empty.
The outline of an area stands behind the area itself. -/
def emptyDashes? : Symbolizer → Option Problem
  | .fill area =>
    if area.outlineDasharray = some [] then some (unreadable 1 .line) else none
  | .line stroke =>
    if stroke.dasharray = some [] then some (unreadable 0 stroke.tag) else none
  | _ => none
where
  unreadable (index : Nat) (tag : DrawingTag) : Problem :=
    .inSymbolizer index (keyword tag) (.invalidAttribute (keyword tag) "stroke-dasharray" "")

/-- Without an empty list of dash lengths, a symbolizer whose numbers are finite can be read. -/
theorem isSound_of_emptyDashes?_eq_none {symbolizer : Symbolizer}
    (finite : symbolizer.hasFiniteSpans) (absent : symbolizer.emptyDashes? = none) :
    symbolizer.isSound := by
  cases symbolizer with
  | fill area =>
    refine soundDashes_of_ne_nil (fun empty => ?_) finite
    simp [emptyDashes?, empty] at absent
  | line stroke =>
    refine soundDashes_of_ne_nil (fun empty => ?_) finite
    simp [emptyDashes?, empty] at absent
  | mark symbol => exact finite
  | icon image => exact finite
  | raster cover => rfl
  | text label => rfl

/-- Elements with an empty list of dash lengths are refused at this list. -/
theorem result_ofElements_of_emptyDashes? {glyphs : Glyphs} {symbolizer : Symbolizer}
    {elements : List Element} {problem : Problem}
    (built : symbolizer.elements glyphs = .ok elements)
    (empty : symbolizer.emptyDashes? = some problem) :
    (ofElements elements).result = .error problem := by
  have cases_ := elements_cases built
  cases symbolizer with
  | fill area =>
    obtain ⟨path, found, rfl⟩ := cases_
    rw [emptyDashes?] at empty
    split at empty
    · rename_i dashes
      cases empty
      have outlined : area.hasOutline := by simp [Fill.hasOutline, dashes]
      have polygon := Fill.ofElement_polygonWith (Graphic.returned_of_path? found)
        (Carriage.carries_direct (area.polygonWith path))
      have outline := Line.result_ofElement_of_dasharray_nil area.written_outline dashes (.inl rfl)
      rw [if_pos outlined]
      simp only [ofElements, ofElementsFrom, Traced.result_bind, Traced.result_mapProblem, polygon,
        outline]
      rfl
    · cases empty
  | line stroke =>
    obtain ⟨path, found, rfl⟩ := cases_
    rw [emptyDashes?] at empty
    split at empty
    · rename_i dashes
      cases empty
      have name := stroke.name_elementWith path
      have line := Line.result_ofElement_of_dasharray_nil (stroke.written_elementWith path) dashes
        (by rw [name]; exact stroke.tag_eq)
      rw [name] at line
      simp only [ofElements, ofElementsFrom, Traced.result_bind, Traced.result_mapProblem, line,
        name]
      rfl
    · cases empty
  | _ => cases empty

/-- The elements of a symbolizer whose numbers are finite are read as its canonical form, if no list
of dash lengths is empty, and are refused at the list if one is. -/
theorem result_ofElements_elements {glyphs : Glyphs} {symbolizer : Symbolizer}
    {elements : List Element} (built : symbolizer.elements glyphs = .ok elements)
    (finite : symbolizer.hasFiniteSpans) :
    (ofElements elements).result =
      match symbolizer.emptyDashes? with
      | some problem => .error problem
      | none => .ok symbolizer.canonical := by
  cases empty : symbolizer.emptyDashes? with
  | some problem => exact result_ofElements_of_emptyDashes? built empty
  | none =>
    have sound := isSound_of_emptyDashes?_eq_none finite empty
    rw [result_ofElements_direct built sound, symbolizer.returned_direct]

/-- An area with an outline. -/
def outlined (dashes : List Binary64) : Symbolizer :=
  .fill { color := some "#eeeeee", outlineDasharray := some dashes }

/-- An outline of dashes is read as a line of its own, one without dash lengths is refused. -/
theorem result_ofElements_outlined :
    (∃ elements, (outlined [.one]).elements {} = .ok elements ∧
      (outlined [.one]).hasFiniteSpans ∧ (ofElements elements).result =
        .ok [.fill { color := some "#eeeeee" }, .line { dasharray := some [.one] }]) ∧
    ∃ elements, (outlined []).elements {} = .ok elements ∧
      (outlined []).hasFiniteSpans ∧ (ofElements elements).result =
        .error (.inSymbolizer 1 "LineSymbolizer"
          (.invalidAttribute "LineSymbolizer" "stroke-dasharray" "")) :=
  ⟨⟨_, rfl, by decide, @result_ofElements_elements {} (outlined [.one]) _ rfl (by decide)⟩,
    ⟨_, rfl, by decide, @result_ofElements_elements {} (outlined []) _ rfl (by decide)⟩⟩

/-- The element of a line without dash lengths is written, but not read. -/
theorem not_exists_ofElements_emptyLine : ∃ elements,
    (Symbolizer.line { dasharray := some [] }).elements {} = .ok elements ∧
    ¬∃ read, (ofElements elements).result = .ok read := by
  refine ⟨_, rfl, ?_⟩
  rintro ⟨read, done⟩
  have refused := @result_ofElements_of_emptyDashes? {} (.line { dasharray := some [] }) _ _ rfl rfl
  rw [refused] at done
  cases done

end Symbolizer

end CartoStyle
