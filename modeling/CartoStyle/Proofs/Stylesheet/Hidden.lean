import CartoStyle.Proofs.Stylesheet.Style

/-!
# Hidden symbolizers

A hidden symbolizer is written as one that is not hidden, but the opacity of its own element is zero
whatever the symbolizer says of it (`Symbolizer.elements_setVisibility`), and whatever is configured
for such elements. The outline of a hidden area is drawn by another element, whose opacity is that
of the outline (`Symbolizer.overlay_elements_of_hidden`).
-/

namespace CartoStyle

open Stylesheet
open Xml (AttrValue Element)

/-! ## Elements that differ in one attribute -/

namespace Stylesheet

/-- The attribute that tells how opaque an element is. -/
def DrawingTag.opacityAttribute : DrawingTag → String
  | .polygon | .polygonPattern => "fill-opacity"
  | .line | .linePattern => "stroke-opacity"
  | .markers | .raster | .text => "opacity"

/-- An element is another one, with zero for one of its attributes. -/
structure Dimmed (attributeName : String) (shown hidden : Element) : Prop where
  name : hidden.name = shown.name
  text : hidden.text = shown.text
  children : hidden.children = shown.children
  others : hidden.attributes.entries.filter (fun entry => entry.1 ≠ attributeName) =
    shown.attributes.entries.filter fun entry => entry.1 ≠ attributeName
  opacity : hidden.attributes.entries.filter (fun entry => entry.1 = attributeName) =
    [(attributeName, .number .zero)]

namespace Dimmed

variable {attributeName : String} {shown hidden : Element}

theorem withAttribute_zero (attributeName : String) (element : Element) :
    Dimmed attributeName element (element.withAttribute attributeName (.number .zero)) where
  name := rfl
  text := rfl
  children := rfl
  others := (Dictionary.filter_insertEntry (fun _ => rfl) _).trans (if_neg (by simp))
  opacity := Dictionary.filter_entries_of_get? (Dictionary.get?_insert_self ..)

/-- Another attribute goes to the same place in both elements. -/
theorem withAttribute (dimmed : Dimmed attributeName shown hidden) {other : String}
    (different : other ≠ attributeName) (value : AttrValue) :
    Dimmed attributeName (shown.withAttribute other value) (hidden.withAttribute other value) where
  name := dimmed.name
  text := dimmed.text
  children := dimmed.children
  others := by
    change (Dictionary.insertEntry ..).filter _ = (Dictionary.insertEntry ..).filter _
    rw [Dictionary.filter_insertEntry fun _ => rfl, Dictionary.filter_insertEntry fun _ => rfl,
      dimmed.others]
  opacity := by
    change (Dictionary.insertEntry ..).filter _ = _
    rw [Dictionary.filter_insertEntry fun _ => rfl, if_neg (by simpa using different),
      dimmed.opacity]

theorem withFile (dimmed : Dimmed attributeName shown hidden)
    (different : fileAttribute ≠ attributeName) (path : Option String) :
    Dimmed attributeName (withFile path shown) (withFile path hidden) := by
  cases path with
  | none => exact dimmed
  | some path => exact dimmed.withAttribute different _

theorem attribute?_eq (dimmed : Dimmed attributeName shown hidden) :
    hidden.attribute? attributeName = some (.number .zero) := by
  apply Dictionary.get?_of_mem_entries
  have member := dimmed.opacity ▸ List.mem_singleton_self _
  exact (List.mem_filter.mp member).1

end Dimmed

end Stylesheet

theorem Fill.opacityAttribute_tag (area : Fill) : area.tag.opacityAttribute = "fill-opacity" := by
  rw [tag]
  split <;> rfl

theorem Line.opacityAttribute_tag (stroke : Line) :
    stroke.tag.opacityAttribute = "stroke-opacity" := by
  rw [tag]
  split <;> rfl

namespace Symbolizer

/-! ## Hiding a symbolizer -/

/-- A symbolizer that is said to be visible, or hidden, or neither. -/
def setVisibility (visibility : Option Bool) : Symbolizer → Symbolizer
  | .fill area => .fill { area with visibility }
  | .line stroke => .line { stroke with visibility }
  | .mark symbol => .mark { symbol with visibility }
  | .icon image => .icon { image with visibility }
  | .raster cover => .raster { cover with visibility }
  | .text label => .text { label with visibility }

theorem setVisibility_visibility (symbolizer : Symbolizer) :
    symbolizer.setVisibility symbolizer.visibility = symbolizer := by
  cases symbolizer <;> rfl

/-- The kind of a symbolizer's own element. -/
def tag : Symbolizer → DrawingTag
  | .fill area => area.tag
  | .line stroke => stroke.tag
  | .mark _ | .icon _ => .markers
  | .raster _ => .raster
  | .text _ => .text

/-- The element of an outline, which follows the own element of an area. -/
def outlines : Symbolizer → List Element
  | .fill area => if area.hasOutline then [area.outline] else []
  | _ => []

variable {symbolizer : Symbolizer} {glyphs : Glyphs}

/-- What a symbolizer is written as for every visibility: its own element is one of two, which go
together, and no other element depends on it. -/
def Fades (symbolizer : Symbolizer) (glyphs : Glyphs) : Prop :=
  ∃ own : Except Problem (Element × Element),
    (∀ visibility, (symbolizer.setVisibility visibility).elements glyphs = own.map fun pair =>
      (if visibility = some false then pair.2 else pair.1) :: symbolizer.outlines) ∧
    ∀ shown hidden, own = .ok (shown, hidden) → shown.name = keyword symbolizer.tag ∧
      Dimmed symbolizer.tag.opacityAttribute shown hidden

/-- It is enough to know the own element for each path that may be found. -/
theorem fades_of_own {α : Type} (draw : Option Bool → α → Element) (found : Except Problem α)
    (written : ∀ visibility, (symbolizer.setVisibility visibility).elements glyphs =
      found.map fun part => draw visibility part :: symbolizer.outlines)
    (visible : ∀ part, draw (some true) part = draw none part)
    (name : ∀ part, (draw none part).name = keyword symbolizer.tag)
    (dimmed : ∀ part, Dimmed symbolizer.tag.opacityAttribute (draw none part)
      (draw (some false) part)) :
    symbolizer.Fades glyphs := by
  refine ⟨found.map fun part => (draw none part, draw (some false) part), ?_, ?_⟩
  · intro visibility
    rw [written]
    cases found with
    | error problem => rfl
    | ok part =>
      match visibility with
      | none | some false => rfl
      | some true =>
        change Except.ok (draw (some true) part :: _) = _
        rw [visible]
        rfl
  · intro shown hidden same
    obtain ⟨part, -, rfl, rfl⟩ := map_eq_ok_iff.mp same
    exact ⟨name part, dimmed part⟩

/-- Every kind of symbolizer hides its own element and no other one. -/
theorem fades (symbolizer : Symbolizer) (glyphs : Glyphs) : symbolizer.Fades glyphs := by
  cases symbolizer with
  | fill area =>
    refine fades_of_own (fun visibility => Fill.polygonWith { area with visibility })
      (Graphic.path? glyphs area.graphicFill) (fun visibility => ?_) (fun _ => rfl)
      (Fill.name_polygonWith { area with visibility := none }) fun path => ?_
    · rw [setVisibility, elements, Fill.elements, Fill.polygon_eq]
      cases Graphic.path? glyphs area.graphicFill <;> rfl
    · rw [tag, area.opacityAttribute_tag]
      exact Dimmed.withAttribute_zero _ _
  | line stroke =>
    refine fades_of_own (fun visibility => Line.elementWith { stroke with visibility })
      (Graphic.path? glyphs stroke.graphic?) (fun visibility => ?_) (fun _ => rfl)
      (Line.name_elementWith { stroke with visibility := none }) fun path => ?_
    · rw [setVisibility, elements, Line.element_eq, Line.graphic?, Line.graphic?]
      cases Graphic.path? glyphs (stroke.graphicFill.or stroke.graphicStroke) <;> rfl
    · rw [tag, stroke.opacityAttribute_tag]
      -- The path of a line comes after its opacity, so it is put into two elements that differ.
      exact (Dimmed.withAttribute_zero _ _).withFile (by decide) path
  | mark symbol =>
    refine fades_of_own (fun visibility => Mark.elementWith { symbol with visibility })
      (Graphic.file? glyphs (.mark symbol)) (fun visibility => ?_) (fun _ => rfl)
      (Mark.name_elementWith { symbol with visibility := none }) fun path => ?_
    · have found : Graphic.file? glyphs (.mark { symbol with visibility }) =
          Graphic.file? glyphs (.mark symbol) := rfl
      rw [setVisibility, elements, Mark.element_eq, found]
      cases Graphic.file? glyphs (.mark symbol) <;> rfl
    · exact Dimmed.withAttribute_zero _ _
  | icon image =>
    exact fades_of_own (fun visibility (_ : Unit) => Icon.element { image with visibility })
      (.ok ()) (fun _ => rfl) (fun _ => rfl) (fun _ => Icon.name_element _)
      fun _ => Dimmed.withAttribute_zero _ _
  | raster cover =>
    exact fades_of_own (fun visibility (_ : Unit) => Raster.element { cover with visibility })
      (.ok ()) (fun _ => rfl) (fun _ => rfl) (fun _ => Raster.name_element _)
      fun _ => Dimmed.withAttribute_zero _ _
  | text label =>
    exact fades_of_own (fun visibility (_ : Unit) => Label.element { label with visibility })
      (.ok ()) (fun _ => rfl) (fun _ => rfl) (fun _ => Label.name_element _)
      fun _ => Dimmed.withAttribute_zero _ _

/-- A symbolizer that is said to be visible is written as one of which nothing is said. A hidden one
is written if that one is: with the same elements but for its own, which differs in the opacity
alone. -/
theorem elements_setVisibility (symbolizer : Symbolizer) (glyphs : Glyphs) :
    (symbolizer.setVisibility (some true)).elements glyphs =
      (symbolizer.setVisibility none).elements glyphs ∧
    ((∃ problem, (symbolizer.setVisibility none).elements glyphs = .error problem ∧
        (symbolizer.setVisibility (some false)).elements glyphs = .error problem) ∨
      ∃ shown hidden,
        (symbolizer.setVisibility none).elements glyphs = .ok (shown :: symbolizer.outlines) ∧
        (symbolizer.setVisibility (some false)).elements glyphs =
          .ok (hidden :: symbolizer.outlines) ∧
        shown.name = keyword symbolizer.tag ∧
        Dimmed symbolizer.tag.opacityAttribute shown hidden) := by
  obtain ⟨own, written, differ⟩ := symbolizer.fades glyphs
  refine ⟨(written (some true)).trans (written none).symm, ?_⟩
  cases own with
  | error problem => exact .inl ⟨problem, written none, written (some false)⟩
  | ok pair =>
    obtain ⟨name, dimmed⟩ := differ pair.1 pair.2 rfl
    exact .inr ⟨pair.1, pair.2, written none, written (some false), name, dimmed⟩

/-- The own element of a hidden symbolizer has zero for its opacity, whatever is configured. -/
theorem exists_own_of_hidden (hidden : symbolizer.visibility = some false)
    {elements : List Element} (built : symbolizer.elements glyphs = .ok elements)
    (options : Options) :
    ∃ own, elements = own :: symbolizer.outlines ∧ own.name = keyword symbolizer.tag ∧
      (options.overlay own).attribute? symbolizer.tag.opacityAttribute = some (.number .zero) := by
  obtain ⟨pairs, written, differ⟩ := symbolizer.fades glyphs
  have same := written symbolizer.visibility
  rw [setVisibility_visibility, built, hidden] at same
  obtain ⟨⟨shown, own⟩, found, rfl⟩ := map_eq_ok_iff.mp same.symm
  obtain ⟨name, dimmed⟩ := differ shown own found
  refine ⟨own, rfl, dimmed.name.trans name, ?_⟩
  rw [Options.attribute?_overlay, dimmed.attribute?_eq, Option.some_or]

end Symbolizer

/-! ## Hidden symbolizers of a style -/

/-- The elements of a symbolizer, with what is configured for them, stand together in the element of
its rule. -/
theorem Style.exists_infix_children {style : Style} {options : Options} {root : Element}
    (built : (style.element options).result = .ok root) {index : Nat} {rule : Rule}
    (place : style.rules[index]? = some rule) {symbolizer : Symbolizer}
    (drawn : symbolizer ∈ rule.symbolizers) :
    ∃ inner outer elements, (find root).result = .ok inner ∧
      inner.children[index]? = some outer ∧ symbolizer.elements options.glyphs = .ok elements ∧
      elements.map options.overlay <:+: outer.children := by
  have arrival := arrival_overlay options
  rw [result_element] at built
  obtain ⟨children, made, rfl⟩ := map_eq_ok_iff.mp built
  obtain ⟨outer, there, own⟩ := exists_getElem?_ruleElements made place
  obtain ⟨text, drawings, -, shown, rfl⟩ := Rule.element_cases own
  obtain ⟨elements, here, together⟩ := Symbolizer.exists_infix_drawings shown drawn
  have inside : drawings <:+: (rule.elementWith text drawings).children := by
    rw [Rule.elementWith]
    exact (List.suffix_append _ drawings).isInfix
  refine ⟨_, options.overlay (rule.elementWith text drawings), elements,
    result_find_root arrival style children, ?_, here, ?_⟩
  · rw [arrival.children_eq, List.getElem?_map]
    exact congrArg (Option.map options.overlay) there
  · rw [arrival.children_eq]
    exact (together.trans inside).map options.overlay

/-- The line of an outline is as opaque as the outline, or as it is configured. -/
theorem Fill.attribute?_overlay_outline (area : Fill) (options : Options) :
    (options.overlay area.outline).attribute? DrawingTag.line.opacityAttribute =
      (area.outlineOpacity.map .number).or
        ((options.configured (keyword DrawingTag.line)).get? DrawingTag.line.opacityAttribute) := by
  have listed : AttrField.of "stroke-opacity" .number Line.opacity
      (fun v l => { l with opacity := some v }) ∈ Line.table := by
    simp [Line.table]
  have found : area.outline.attribute? DrawingTag.line.opacityAttribute =
      area.outlineOpacity.map .number := area.written_outline _ listed
  rw [Options.attribute?_overlay, found]
  rfl

namespace Symbolizer

/-- Whatever a hidden symbolizer says and whatever is configured, its own element has zero for its
opacity. The outline of a hidden area has its own opacity, or the one that is configured. Both stand
in the element of the rule. -/
theorem overlay_elements_of_hidden {symbolizer : Symbolizer}
    (hidden : symbolizer.visibility = some false) (options : Options) :
    (∀ glyphs elements, symbolizer.elements glyphs = .ok elements →
      ∃ own, elements = own :: symbolizer.outlines ∧ own.name = keyword symbolizer.tag ∧
        (options.overlay own).attribute? symbolizer.tag.opacityAttribute =
          some (.number .zero)) ∧
    (∀ outline ∈ symbolizer.outlines, ∃ area, symbolizer = .fill area ∧
      outline.name = keyword DrawingTag.line ∧
      (options.overlay outline).attribute? DrawingTag.line.opacityAttribute =
        (area.outlineOpacity.map .number).or
          ((options.configured (keyword DrawingTag.line)).get?
            DrawingTag.line.opacityAttribute)) ∧
    ∀ (style : Style) (root : Element) (index : Nat) (rule : Rule),
      (style.element options).result = .ok root → style.rules[index]? = some rule →
      symbolizer ∈ rule.symbolizers →
      ∃ inner outer elements, (Style.find root).result = .ok inner ∧
        inner.children[index]? = some outer ∧ symbolizer.elements options.glyphs = .ok elements ∧
        elements.map options.overlay <:+: outer.children := by
  refine ⟨fun glyphs elements built => exists_own_of_hidden hidden built options, ?_, ?_⟩
  · intro outline member
    cases symbolizer with
    | fill area =>
      rw [outlines] at member
      split at member
      · obtain rfl := List.mem_singleton.mp member
        exact ⟨area, rfl, rfl, area.attribute?_overlay_outline options⟩
      · cases member
    | line | mark | icon | raster | text => cases member
  · intro style root index rule built place drawn
    exact Style.exists_infix_children built place drawn

/-- A hidden lake with a shore. -/
def hiddenLake : Fill where
  color := some "#0000ff"
  opacity := some .one
  outlineColor := some "#000000"
  visibility := some false

/-- A rule that draws it. -/
def lakes : Rule := { symbolizers := [.fill hiddenLake] }

/-- Areas and lines cannot be seen through. -/
def opaqueElements : Options where
  symbolizerOptions := .ofList [
    (.polygon, .ofList [("fill-opacity", .number .one)]),
    (.line, .ofList [("stroke-opacity", .number .one)])]

theorem overlay_elements_hiddenLake :
    let shore := hiddenLake.outline
    (Symbolizer.fill hiddenLake).visibility = some false ∧
    .fill hiddenLake ∈ lakes.symbolizers ∧
    (∃ own, (Symbolizer.fill hiddenLake).elements opaqueElements.glyphs = .ok [own, shore] ∧
      own.name = "PolygonSymbolizer" ∧
      (opaqueElements.overlay own).attribute? "fill-opacity" = some (.number .zero)) ∧
    (opaqueElements.overlay shore).attribute? "stroke-opacity" = some (.number .one) ∧
    ∃ root inner outer elements,
      (Style.element opaqueElements { rules := [lakes] }).result = .ok root ∧
      (Style.find root).result = .ok inner ∧ inner.children[0]? = some outer ∧
      (Symbolizer.fill hiddenLake).elements opaqueElements.glyphs = .ok elements ∧
      elements.map opaqueElements.overlay <:+: outer.children := by
  intro shore
  have hidden : (Symbolizer.fill hiddenLake).visibility = some false := rfl
  have drawn : .fill hiddenLake ∈ lakes.symbolizers := List.mem_singleton_self _
  have built : (Style.element opaqueElements { rules := [lakes] }).result = .ok _ := rfl
  have written : (Symbolizer.fill hiddenLake).elements opaqueElements.glyphs = .ok _ := rfl
  obtain ⟨fades, outlined, stands⟩ := overlay_elements_of_hidden hidden opaqueElements
  obtain ⟨own, same, name, zero⟩ := fades _ _ written
  obtain ⟨area, found, -, opacity⟩ := outlined shore (List.mem_singleton_self _)
  cases found
  obtain ⟨inner, outer, elements, rest⟩ := stands _ _ 0 lakes built rfl drawn
  exact ⟨hidden, drawn, ⟨own, written.trans (congrArg _ same), name, zero⟩, opacity,
    _, inner, outer, elements, built, rest⟩

/-- The shore is drawn all the same. -/
theorem shore_of_hiddenLake : (Symbolizer.fill hiddenLake).visibility = some false ∧
    .fill hiddenLake ∈ lakes.symbolizers ∧
    ∃ root inner outer own shore,
      (Style.element {} { rules := [lakes] }).result = .ok root ∧
      (Style.find root).result = .ok inner ∧ inner.children = [outer] ∧
      outer.children = [own, shore] ∧ shore.name = keyword DrawingTag.line ∧
      shore.attribute? DrawingTag.line.opacityAttribute ≠ some (.number .zero) :=
  ⟨rfl, List.mem_singleton_self _, _, _, _, _, _, rfl, rfl, rfl, rfl, rfl, by decide⟩

end Symbolizer

end CartoStyle
