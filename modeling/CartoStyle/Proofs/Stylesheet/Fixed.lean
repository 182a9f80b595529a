import CartoStyle.Proofs.Stylesheet.Symbolizers

/-!
# What has been read back stays

A symbolizer that has been read back (`Symbolizer.Remains`) is read back as itself when it is
written again (`Symbolizer.Remains.returned_eq`), and it can be written again, since a mark that is
read back has a name with a glyph (`Symbolizer.Remains.exists_elements`).
-/

namespace CartoStyle

open Stylesheet
open Xml (AttrValue Element)

variable {way : Carriage} {glyphs : Glyphs}

/-! ## Strings -/

namespace Stylesheet.Carriage

theorem mem_intercalate {separator : String} {parts : List String} {c : Char}
    (member : c ∈ (separator.intercalate parts).toList) :
    (∃ part ∈ parts, c ∈ part.toList) ∨ c ∈ separator.toList := by
  rw [String.toList_intercalate] at member
  induction parts with
  | nil => cases member
  | cons part parts ih =>
    cases parts with
    | nil =>
      rw [List.map_singleton, List.intercalate_singleton] at member
      exact .inl ⟨part, List.mem_cons_self .., member⟩
    | cons second others =>
      rw [List.map_cons, List.map_cons, List.intercalate_cons_cons] at member
      rcases List.mem_append.mp member with front | rest
      · rcases List.mem_append.mp front with inside | between
        · exact .inl ⟨part, List.mem_cons_self .., inside⟩
        · exact .inr between
      · rcases ih rest with ⟨other, present, inside⟩ | between
        · exact .inl ⟨other, List.mem_cons_of_mem _ present, inside⟩
        · exact .inr between

@[simp] theorem settled_comp_settled : way.settled ∘ way.settled = way.settled :=
  funext way.settled_settled

/-- Names that have been read back are read back as they are. -/
@[simp] theorem names_names (names : List String) :
    way.names (way.names names) = way.names names := by
  have listed : ∀ name ∈ way.names names, isListed name := fun _ => isListed_of_mem_namesOf
  have joined :
      way.settled (", ".intercalate (way.names names)) = ", ".intercalate (way.names names) := by
    apply way.settled_of_arrived (", ".intercalate names)
    intro c member
    rcases mem_intercalate member with ⟨name, present, inside⟩ | between
    · exact .inl (mem_of_mem_namesOf present inside)
    · have known : ∀ c ∈ ", ".toList, c = ' ' ∨ Text.isVisible c := by decide
      exact .inr (known c between)
  rw [Carriage.names, joined, namesOf_intercalate listed]

@[simp] theorem names_comp_names : way.names ∘ way.names = way.names := funext way.names_names

end Stylesheet.Carriage

/-! ## Graphics -/

namespace Graphic

@[simp] theorem returned_ofFile (path : String) :
    (ofFile (way.settled path)).returned way = some (ofFile (way.settled path)) := by
  have same := way.markOfPath?_settled path
  cases mark : markOfPath? path with
  | some name => simp [ofFile, same, mark, returned]
  | none => simp [ofFile, same, mark, returned]

/-- A graphic that has been read back is read back as it is. -/
theorem returned_of_returned {graphic left : Graphic} (kept : graphic.returned way = some left) :
    left.returned way = some left := by
  cases graphic with
  | mark symbol =>
    obtain ⟨name, -, rfl⟩ := Option.map_eq_some_iff.mp kept
    rfl
  | icon image =>
    obtain ⟨path, -, rfl⟩ := Option.map_eq_some_iff.mp kept
    exact returned_ofFile path

@[simp] theorem bind_returned_bind_returned (graphic : Option Graphic) :
    (graphic.bind (returned way)).bind (returned way) = graphic.bind (returned way) := by
  cases graphic with
  | none => rfl
  | some graphic =>
    rw [Option.bind_some]
    cases kept : graphic.returned way with
    | none => rfl
    | some left => exact returned_of_returned kept

/-- The path of a graphic that has been read back is found. -/
theorem exists_path?_returned {graphic : Option Graphic} {path : Option String}
    (found : path? glyphs graphic = .ok path) :
    ∃ path, path? glyphs (graphic.bind (returned way)) = .ok path := by
  cases graphic with
  | none => exact ⟨none, rfl⟩
  | some graphic =>
    cases graphic with
    | mark symbol =>
      cases named : symbol.wellKnownName with
      | none => exact ⟨none, by simp [returned, named, path?]⟩
      | some name =>
        refine ⟨path, ?_⟩
        rw [← found]
        simp [returned, named, path?, file?]
    | icon image =>
      cases shape : image.image with
      | none => exact ⟨none, by simp [returned, shape, path?]⟩
      | some source =>
        rw [Option.bind_some, returned, shape, Option.map_some, path?, ofFile,
          way.markOfPath?_settled]
        cases mark : markOfPath? source with
        | none => exact ⟨_, rfl⟩
        | some name =>
          obtain ⟨file, known⟩ := exists_glyphFile? mark
          exact ⟨some (glyphs.path file),
            by simp only [file?, Glyphs.resolve_of_glyphFile? known]; rfl⟩

end Graphic

/-! ## Symbolizers -/

@[simp] theorem shownOpacity_none (opacity : Option Binary64) :
    shownOpacity none opacity = opacity :=
  if_neg (by simp)

theorem Fill.returned_returned (area : Fill) :
    (area.returned way).returned way = area.returned way := by
  simp [returned]

theorem Line.returned_returned (stroke : Line) :
    (stroke.returned way).returned way = stroke.returned way := by
  cases filled : stroke.graphicFill with
  | none => simp [returned, filled]
  | some filling =>
    cases kept : filling.returned way with
    | none => simp [returned, filled, kept]
    | some left => simp [returned, filled, kept, Graphic.returned_of_returned kept]

theorem Mark.returned_returned (symbol : Mark) :
    (symbol.returned way).returned way = symbol.returned way := by
  simp [returned]

/-- A property that has been read back is read back as it is. -/
@[simp] theorem Label.bind_plainProperty? (property : Option String) :
    (property.bind fun property => plainProperty? (way.inner property)).bind
        (fun property => plainProperty? (way.inner property)) =
      property.bind fun property => plainProperty? (way.inner property) := by
  cases property with
  | none => rfl
  | some property =>
    rw [Option.bind_some]
    cases plain : plainProperty? (way.inner property) with
    | none => rfl
    | some kept =>
      obtain rfl : way.inner property = kept := by
        rw [plainProperty?] at plain
        split at plain
        · cases plain
        · exact Option.some.inj plain
      rw [Option.bind_some, way.inner_inner, plain]

theorem Label.returned_returned (label : Label) :
    (label.returned way).returned way = label.returned way := by
  simp [returned]

theorem Raster.returned_returned (cover : Raster) : cover.returned.returned = cover.returned := by
  simp [returned]

/-- What an icon has become is read back as it is. -/
theorem Icon.returned_returned (image : Icon) :
    (image.returned way).returned way = [image.returned way] := by
  rw [returned]
  cases stays : image.staysIcon with
  | true =>
    have still : staysIcon { image with
        image := image.image.map way.settled
        color := image.color.map way.settled
        opacity := shownOpacity image.visibility image.opacity
        visibility := none } := by
      rw [staysIcon] at stays ⊢
      cases shape : image.image <;> simpa [shape, way.markOfPath?_settled] using stays
    simp only [if_true, Symbolizer.returned, returned, still]
    simp
  | false => simp [Symbolizer.returned, Mark.returned, asMark]

/-! ## Symbolizers written again -/

/-- The graphic of a line that has been read back is what was left of it. -/
theorem Line.graphic?_returned (stroke : Line) :
    (stroke.returned way).graphic? = stroke.graphic?.bind (Graphic.returned way) := by
  cases filled : stroke.graphicFill <;> simp [graphic?, returned, filled]

theorem Fill.exists_elements (area : Fill)
    (found : ∃ path, Graphic.path? glyphs area.graphicFill = .ok path) :
    ∃ elements, area.elements glyphs = .ok elements := by
  obtain ⟨path, found⟩ := found
  rw [elements, polygon_eq, found]
  exact ⟨_, rfl⟩

theorem Line.exists_elements (stroke : Line)
    (found : ∃ path, Graphic.path? glyphs stroke.graphic? = .ok path) :
    ∃ elements, (Symbolizer.line stroke).elements glyphs = .ok elements := by
  obtain ⟨path, found⟩ := found
  rw [Symbolizer.elements, element_eq, found]
  exact ⟨_, rfl⟩

theorem Mark.exists_elements (symbol : Mark)
    (found : ∃ path, Graphic.file? glyphs (.mark symbol) = .ok path) :
    ∃ elements, (Symbolizer.mark symbol).elements glyphs = .ok elements := by
  obtain ⟨path, found⟩ := found
  rw [Symbolizer.elements, element_eq, found]
  exact ⟨_, rfl⟩

namespace Symbolizer

/-- One of the symbolizers that are read back from the elements of a symbolizer. -/
inductive Remains (way : Carriage) : Symbolizer → Symbolizer → Prop
  | fill (area : Fill) : Remains way (.fill area) (.fill (area.returned way))
  | border (area : Fill) : Remains way (.fill area) (.line (area.border.returned way))
  | line (stroke : Line) : Remains way (.line stroke) (.line (stroke.returned way))
  | mark (symbol : Mark) : Remains way (.mark symbol) (.mark (symbol.returned way))
  | icon (image : Icon) : Remains way (.icon image) (image.returned way)
  | raster (cover : Raster) : Remains way (.raster cover) (.raster cover.returned)
  | text (label : Label) : Remains way (.text label) (.text (label.returned way))

variable {symbolizer left : Symbolizer}

theorem remains_of_mem_returned (member : left ∈ symbolizer.returned way) :
    Remains way symbolizer left := by
  cases symbolizer with
  | fill area =>
    rw [returned] at member
    rcases List.mem_cons.mp member with rfl | outlined
    · exact .fill area
    · split at outlined
      · rw [List.mem_singleton.mp outlined]
        exact .border area
      · cases outlined
  | line stroke => rw [List.mem_singleton.mp member]; exact .line stroke
  | mark symbol => rw [List.mem_singleton.mp member]; exact .mark symbol
  | icon image => rw [List.mem_singleton.mp member]; exact .icon image
  | raster cover => rw [List.mem_singleton.mp member]; exact .raster cover
  | text label => rw [List.mem_singleton.mp member]; exact .text label

/-- What has been read back is read back as it is. -/
theorem Remains.returned_eq (remains : Remains way symbolizer left) :
    left.returned way = [left] := by
  cases remains with
  | fill area =>
    have bare : (area.returned way).hasOutline = false := rfl
    rw [returned, area.returned_returned, bare]
    rfl
  | border area => rw [returned, Line.returned_returned]
  | line stroke => rw [returned, stroke.returned_returned]
  | mark symbol => rw [returned, symbol.returned_returned]
  | icon image => exact image.returned_returned
  | raster cover => rw [returned, cover.returned_returned]
  | text label => rw [returned, label.returned_returned]

/-- What has been read back is sound. -/
theorem Remains.isSound (remains : Remains way symbolizer left) (sound : symbolizer.isSound) :
    left.isSound := by
  cases remains with
  | icon image =>
    rw [Icon.returned]
    split <;> exact sound
  | border | line | mark => exact sound
  | fill | raster | text => rfl

/-- What has been read back can be written. -/
theorem Remains.exists_elements (remains : Remains way symbolizer left) {elements : List Element}
    (built : symbolizer.elements glyphs = .ok elements) :
    ∃ elements, left.elements glyphs = .ok elements := by
  have cases_ := elements_cases built
  cases remains with
  | fill area =>
    obtain ⟨path, found, -⟩ := cases_
    exact (area.returned way).exists_elements (Graphic.exists_path?_returned found)
  | border area => exact Line.exists_elements _ ⟨none, rfl⟩
  | line stroke =>
    obtain ⟨path, found, -⟩ := cases_
    apply Line.exists_elements
    rw [Line.graphic?_returned]
    exact Graphic.exists_path?_returned found
  | mark symbol =>
    obtain ⟨path, found, -⟩ := cases_
    exact Mark.exists_elements _ ⟨path, found⟩
  | icon image =>
    rw [Icon.returned]
    split
    · exact ⟨_, rfl⟩
    · apply Mark.exists_elements
      cases mark : image.image.bind markOfPath? with
      | none => exact ⟨none, rfl⟩
      | some name =>
        obtain ⟨path, -, pointed⟩ := Option.bind_eq_some_iff.mp mark
        obtain ⟨file, known⟩ := exists_glyphFile? pointed
        exact ⟨some (glyphs.path file),
          by simp only [Graphic.file?, Glyphs.resolve_of_glyphFile? known]; rfl⟩
  | raster | text => exact ⟨_, rfl⟩

end Symbolizer

end CartoStyle
