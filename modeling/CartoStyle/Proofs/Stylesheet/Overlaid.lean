import CartoStyle.Proofs.Stylesheet.Rewritten
import CartoStyle.Proofs.Stylesheet.Style

/-!
# Marks under configured attributes

The reader tells marks from icons by two attributes, which the options may add to any markers. A
mark with a name has a path of its own, so it stays a mark. Without one it becomes an icon exactly
if the options make icons of bare markers (`Options.makesIcons`). A mark that stays a mark keeps all
that it says, and one that becomes an icon keeps all but its stroke
(`Style.ofElement_overlay_of_mark`).
-/

namespace CartoStyle

open Stylesheet
open Xml (AttrValue Element)

/-- Markers without attributes of their own become an icon: a path is configured for them, but to
no glyph, or no path and the attribute that marks do not have. -/
def Stylesheet.Options.makesIcons (options : Options) : Bool :=
  let attributes := options.configured (keyword DrawingTag.markers)
  match attributes.get? fileAttribute with
  | some path => (markOfPath? path.shown).isNone
  | none => (attributes.get? "allow-overlap").isSome

/-! ## What an element says -/

section Says

variable {σ α : Type} {element : Element} {table : List (AttrField σ)} {record result : σ}
  {form : AttrForm α} {name : String} {get : σ → Option α} {set : α → σ → σ}

/-- A value says a part of a record in some form, or is missing as the part is. -/
def Stylesheet.AttrForm.Says (form : AttrForm α) (value : Option AttrValue) (part : Option α) :
    Prop :=
  value.map form.read = part.map some

/-- A part that was written is said again, whatever is configured. -/
theorem Stylesheet.AttrForm.Says.eq_some {options : Options} {source part : Option α}
    (said : form.Says ((options.overlay element).attribute? name) part)
    (written : element.attribute? name = source.map form.write)
    (again : ∀ whole ∈ source, form.read (form.write whole) = some whole) :
    ∀ whole ∈ source, part = some whole := by
  rintro whole rfl
  have value : (options.overlay element).attribute? name = some (form.write whole) := by
    rw [Options.attribute?_overlay, written]
    rfl
  rw [Says, value, Option.map_some, again whole rfl] at said
  obtain ⟨_, present, same⟩ := Option.map_eq_some_iff.mp said.symm
  rw [present, Option.some.inj same]

/-- A field takes in what its attribute says. -/
theorem Stylesheet.AttrField.exists_says_of_readAll
    (read : readAll element (.of name form get set :: table) record = .ok result)
    (put : Option α → σ → σ) (present : ∀ part, set part record = put (some part) record)
    (absent : record = put none record) :
    ∃ part, form.Says (element.attribute? name) part ∧
      readAll element table (put part record) = .ok result := by
  obtain ⟨middle, here, rest⟩ := readAll_cons_eq_ok read
  rcases here with ⟨missing, rfl⟩ | ⟨value, found, taken⟩
  · refine ⟨none, ?_, by rwa [← absent]⟩
    rw [AttrForm.Says, show element.attribute? name = none from missing]
    rfl
  · obtain ⟨part, said, rfl⟩ := Option.map_eq_some_iff.mp taken
    refine ⟨some part, ?_, by rwa [← present]⟩
    rw [AttrForm.Says, show element.attribute? name = some value from found, Option.map_some, said]
    rfl

end Says

/-- A mark is filled, sized and turned as an element says. -/
structure Mark.Filled (element : Element) (symbol : Mark) : Prop where
  color : AttrForm.text.Says (element.attribute? "fill") symbol.color
  opacity : AttrForm.number.Says (element.attribute? "opacity") symbol.fillOpacity
  radius : ∃ width height, AttrForm.number.Says (element.attribute? "width") width ∧
    AttrForm.number.Says (element.attribute? "height") height ∧ symbol.radius = width.or height
  avoidEdges : AttrForm.flag.Says (element.attribute? "avoid-edges") symbol.avoidEdges
  rotate : AttrForm.rotation.Says (element.attribute? "transform") symbol.rotate

/-- A mark has the stroke that an element says. -/
structure Mark.Stroked (element : Element) (symbol : Mark) : Prop where
  color : AttrForm.text.Says (element.attribute? "stroke") symbol.strokeColor
  width : AttrForm.number.Says (element.attribute? "stroke-width") symbol.strokeWidth
  opacity : AttrForm.number.Says (element.attribute? "stroke-opacity") symbol.strokeOpacity

section Readings

variable {element : Element}

open AttrField (exists_says_of_readAll)

theorem Mark.filled_and_stroked_of_readAll {name : Option String} {symbol : Mark}
    (read : AttrField.readAll element table { wellKnownName := name } = .ok symbol) :
    symbol.Filled element ∧ symbol.Stroked element := by
  obtain ⟨opacity, faded, read⟩ := exists_says_of_readAll read
    (fun part symbol => { symbol with fillOpacity := part }) (fun _ => rfl) rfl
  obtain ⟨strokeColor, drawn, read⟩ := exists_says_of_readAll read
    (fun part symbol => { symbol with strokeColor := part }) (fun _ => rfl) rfl
  obtain ⟨strokeWidth, wide, read⟩ := exists_says_of_readAll read
    (fun part symbol => { symbol with strokeWidth := part }) (fun _ => rfl) rfl
  obtain ⟨strokeOpacity, shown, read⟩ := exists_says_of_readAll read
    (fun part symbol => { symbol with strokeOpacity := part }) (fun _ => rfl) rfl
  obtain ⟨width, across, read⟩ := exists_says_of_readAll read
    (fun part symbol => { symbol with radius := part }) (fun _ => rfl) rfl
  -- The width has been read; the height counts only where there is none.
  obtain ⟨height, upright, read⟩ := exists_says_of_readAll read
    (fun part symbol => { symbol with radius := symbol.radius.or part })
    (fun _ => by cases width <;> rfl) (by cases width <;> rfl)
  obtain ⟨color, filled, read⟩ := exists_says_of_readAll read
    (fun part symbol => { symbol with color := part }) (fun _ => rfl) rfl
  obtain ⟨avoidEdges, kept, read⟩ := exists_says_of_readAll read
    (fun part symbol => { symbol with avoidEdges := part }) (fun _ => rfl) rfl
  obtain ⟨rotate, turned, read⟩ := exists_says_of_readAll read
    (fun part symbol => { symbol with rotate := part }) (fun _ => rfl) rfl
  obtain rfl := Except.ok.inj read
  exact ⟨⟨filled, faded, ⟨width, height, across, upright, rfl⟩, kept, turned⟩,
    ⟨drawn, wide, shown⟩⟩

theorem Icon.filled_of_readAll {image : Icon}
    (read : AttrField.readAll element table {} = .ok image) : image.asMark.Filled element := by
  obtain ⟨opacity, faded, read⟩ := exists_says_of_readAll read
    (fun part image => { image with opacity := part }) (fun _ => rfl) rfl
  obtain ⟨width, across, read⟩ := exists_says_of_readAll read
    (fun part image => { image with size := part }) (fun _ => rfl) rfl
  obtain ⟨height, upright, read⟩ := exists_says_of_readAll read
    (fun part image => { image with size := image.size.or part })
    (fun _ => by cases width <;> rfl) (by cases width <;> rfl)
  obtain ⟨color, filled, read⟩ := exists_says_of_readAll read
    (fun part image => { image with color := part }) (fun _ => rfl) rfl
  obtain ⟨allowOverlap, -, read⟩ := exists_says_of_readAll read
    (fun part image => { image with allowOverlap := part }) (fun _ => rfl) rfl
  obtain ⟨avoidEdges, kept, read⟩ := exists_says_of_readAll read
    (fun part image => { image with avoidEdges := part }) (fun _ => rfl) rfl
  obtain ⟨rotate, turned, read⟩ := exists_says_of_readAll read
    (fun part image => { image with rotate := part }) (fun _ => rfl) rfl
  obtain ⟨file, -, read⟩ := exists_says_of_readAll read
    (fun part image => { image with image := part }) (fun _ => rfl) rfl
  obtain rfl := Except.ok.inj read
  exact ⟨filled, faded, ⟨width, height, across, upright, rfl⟩, kept, turned⟩

end Readings

/-! ## The markers of a mark -/

namespace Mark

/-- A mark says all that another one says. -/
structure Extends (symbol other : Mark) : Prop where
  wellKnownName : ∀ name ∈ other.wellKnownName, symbol.wellKnownName = some name
  color : ∀ color ∈ other.color, symbol.color = some color
  fillOpacity : ∀ opacity ∈ other.fillOpacity, symbol.fillOpacity = some opacity
  strokeColor : ∀ color ∈ other.strokeColor, symbol.strokeColor = some color
  strokeWidth : ∀ width ∈ other.strokeWidth, symbol.strokeWidth = some width
  strokeOpacity : ∀ opacity ∈ other.strokeOpacity, symbol.strokeOpacity = some opacity
  radius : ∀ radius ∈ other.radius, symbol.radius = some radius
  avoidEdges : ∀ avoid ∈ other.avoidEdges, symbol.avoidEdges = some avoid
  rotate : ∀ degrees ∈ other.rotate, symbol.rotate = some degrees

/-- A mark without its stroke. -/
def withoutStroke (symbol : Mark) : Mark :=
  { symbol with strokeColor := none, strokeWidth := none, strokeOpacity := none }

section Markers

variable {symbol kept : Mark} {options : Options} {path : Option String}

/-- A mark that is filled as the markers of another say is all of it but its stroke. -/
theorem Filled.extends_withoutStroke
    (filled : kept.Filled (options.overlay (symbol.elementWith path)))
    (named : ∀ name ∈ symbol.wellKnownName, kept.wellKnownName = some name)
    (finite : ∀ degrees ∈ symbol.rotate, degrees.isFinite) :
    kept.Extends symbol.faded.withoutStroke := by
  have written := symbol.written_elementWith path
  simp only [Written, table, List.forall_mem_cons] at written
  obtain ⟨opacity, -, -, -, across, -, color, avoidEdges, transform, -⟩ := written
  obtain ⟨width, height, wide, -, larger⟩ := filled.radius
  exact {
    wellKnownName := named
    color := filled.color.eq_some color fun _ _ => rfl
    fillOpacity := filled.opacity.eq_some opacity fun _ _ => rfl
    strokeColor := by simp [withoutStroke]
    strokeWidth := by simp [withoutStroke]
    strokeOpacity := by simp [withoutStroke]
    radius := fun radius has => by
      rw [larger, wide.eq_some across (fun _ _ => rfl) radius has, Option.some_or]
    avoidEdges := filled.avoidEdges.eq_some avoidEdges fun _ _ => rfl
    rotate := filled.rotate.eq_some transform fun degrees has =>
      rotation?_rotationText (finite degrees has) }

theorem Stroked.extends (stroked : kept.Stroked (options.overlay (symbol.elementWith path)))
    (others : kept.Extends symbol.faded.withoutStroke) : kept.Extends symbol.faded := by
  have written := symbol.written_elementWith path
  simp only [Written, table, List.forall_mem_cons] at written
  obtain ⟨-, color, width, opacity, -⟩ := written
  exact { others with
    strokeColor := stroked.color.eq_some color fun _ _ => rfl
    strokeWidth := stroked.width.eq_some width fun _ _ => rfl
    strokeOpacity := stroked.opacity.eq_some opacity fun _ _ => rfl }

/-- The markers of a mark are taken for an icon if it has no name and the options make icons. -/
theorem drawsIcon_overlay_iff (glyph : path.map markOfPath? = symbol.wellKnownName.map some) :
    drawsIcon (options.overlay (symbol.elementWith path)) ↔
      symbol.wellKnownName = none ∧ options.makesIcons := by
  rw [drawsIcon, Element.attributeText?, Options.attribute?_overlay, Options.attribute?_overlay,
    attribute?_file_elementWith, attribute?_allowOverlap_elementWith, name_elementWith]
  cases path with
  | none =>
    have unnamed : symbol.wellKnownName = none := by simpa using glyph.symm
    rw [and_iff_right unnamed, Options.makesIcons]
    cases (options.configured (keyword DrawingTag.markers)).get? fileAttribute <;> rfl
  | some path =>
    obtain ⟨name, named, known⟩ := Option.map_eq_some_iff.mp glyph.symm
    simp [named, ← known, AttrValue.shown]

/-- The markers of a mark, whatever is configured, are read as a mark that says all that the first
one said, unless it has no name and the options make icons; then only the stroke is lost. -/
theorem cases_of_ofElement_overlay (glyph : path.map markOfPath? = symbol.wellKnownName.map some)
    (finite : ∀ degrees ∈ symbol.rotate, degrees.isFinite) {read : Symbolizer}
    (done : (Symbolizer.ofElement (options.overlay (symbol.elementWith path))).result = .ok read) :
    if symbol.wellKnownName = none ∧ options.makesIcons then
      ∃ image, read = .icon image ∧ image.asMark.Extends symbol.faded.withoutStroke
    else ∃ kept, read = .mark kept ∧ kept.Extends symbol.faded := by
  have tag : (options.overlay (symbol.elementWith path)).name = keyword DrawingTag.markers :=
    ((arrival_overlay options).name_eq _).trans (symbol.name_elementWith path)
  rw [Symbolizer.ofElement, tag, Vocabulary.ofKeyword?_keyword] at done
  have cases_ := markerOfElement_cases done
  simp only [drawsIcon_overlay_iff glyph] at cases_
  split at cases_
  · rename_i icon
    obtain ⟨image, fields, rfl⟩ := cases_
    rw [if_pos icon]
    refine ⟨image, rfl, (Icon.filled_of_readAll fields).extends_withoutStroke ?_ finite⟩
    simp [icon.1]
  · rename_i mark
    obtain ⟨kept, fields, rfl⟩ := cases_
    rw [if_neg mark]
    obtain ⟨filled, stroked⟩ := filled_and_stroked_of_readAll fields
    refine ⟨kept, rfl, stroked.extends (filled.extends_withoutStroke ?_ finite)⟩
    intro name named
    -- The path of the mark itself stands before any that is configured.
    rw [(bare_of_readAll fields).name, Element.attributeText?, Options.attribute?_overlay,
      attribute?_file_elementWith]
    rw [show symbol.wellKnownName = some name from named] at glyph
    obtain ⟨file, has, known⟩ := Option.map_eq_some_iff.mp glyph
    simp [has, AttrValue.shown, known]

end Markers

end Mark

/-! ## Styles -/

namespace Style

/-- A mark of a rule is written as markers in the element of the rule. Whatever is configured, they
are read as a mark that says all that the mark said, unless it has no name and the options make
icons of markers: then they are read as an icon, and the stroke is lost. -/
theorem ofElement_overlay_of_mark {style : Style} {options : Options} {root : Element}
    (built : (style.element options).result = .ok root) {index : Nat} {rule : Rule}
    (place : style.rules[index]? = some rule) {symbol : Mark}
    (drawn : .mark symbol ∈ rule.symbolizers)
    (finite : ∀ degrees ∈ symbol.rotate, degrees.isFinite) :
    ∃ inner outer marker, (find root).result = .ok inner ∧
      inner.children[index]? = some outer ∧ options.overlay marker ∈ outer.children ∧
      symbol.element options.glyphs = .ok marker ∧
      ∀ read, (Symbolizer.ofElement (options.overlay marker)).result = .ok read →
        if symbol.wellKnownName = none ∧ options.makesIcons then
          ∃ image, read = .icon image ∧ image.asMark.Extends symbol.faded.withoutStroke
        else ∃ kept, read = .mark kept ∧ kept.Extends symbol.faded := by
  have arrival := arrival_overlay options
  rw [result_element] at built
  obtain ⟨children, made, rfl⟩ := map_eq_ok_iff.mp built
  obtain ⟨outer, there, own⟩ := exists_getElem?_ruleElements made place
  obtain ⟨text, drawings, -, shown, rfl⟩ := Rule.element_cases own
  obtain ⟨elements, here, together⟩ := Symbolizer.exists_infix_drawings shown drawn
  obtain ⟨path, found, rfl⟩ := Symbolizer.elements_cases here
  have member : symbol.elementWith path ∈ (rule.elementWith text drawings).children := by
    rw [Rule.elementWith]
    exact List.mem_append_right _ (together.subset (List.mem_singleton_self _))
  refine ⟨_, options.overlay (rule.elementWith text drawings), symbol.elementWith path,
    result_find_root arrival style children, ?_, ?_, ?_, ?_⟩
  · rw [arrival.children_eq, List.getElem?_map]
    exact congrArg (Option.map options.overlay) there
  · rw [arrival.children_eq]
    exact List.mem_map_of_mem member
  · rw [Mark.element_eq, found]
    rfl
  · intro read done
    exact Mark.cases_of_ofElement_overlay (Symbolizer.map_markOfPath?_of_file? found) finite done

/-- A dot with a border. -/
def dot : Mark where
  strokeColor := some "#000000"
  strokeWidth := some .one
  radius := some .one

/-- A star with a border that is not shown. -/
def hiddenStar : Mark where
  wellKnownName := some "Star"
  strokeColor := some "#000000"
  rotate := some .one
  visibility := some false

/-- A rule that draws both. -/
def dotsAndStars : Rule := { symbolizers := [.mark dot, .mark hiddenStar] }

/-- Markers are colored and may overlap. -/
def crowded : Options where
  symbolizerOptions :=
    .ofList [(.markers, .ofList [("fill", .text "#ffcc00"), ("allow-overlap", .flag true)])]

theorem ofElement_overlay_hiddenStar : ∃ root inner outer marker kept,
    (element crowded { rules := [dotsAndStars] }).result = .ok root ∧
    .mark hiddenStar ∈ dotsAndStars.symbolizers ∧
    (∀ degrees ∈ hiddenStar.rotate, degrees.isFinite) ∧
    (find root).result = .ok inner ∧ inner.children[0]? = some outer ∧
    crowded.overlay marker ∈ outer.children ∧ hiddenStar.element crowded.glyphs = .ok marker ∧
    (Symbolizer.ofElement (crowded.overlay marker)).result = .ok (.mark kept) ∧
    kept.Extends hiddenStar.faded := by
  have built : (element crowded { rules := [dotsAndStars] }).result = .ok _ := rfl
  have place : [dotsAndStars][0]? = some dotsAndStars := rfl
  have drawn : .mark hiddenStar ∈ dotsAndStars.symbolizers := by simp [dotsAndStars]
  have finite : ∀ degrees ∈ hiddenStar.rotate, degrees.isFinite := by decide
  obtain ⟨inner, outer, marker, found, there, member, own, reads⟩ :=
    ofElement_overlay_of_mark built place drawn finite
  have same : marker = hiddenStar.elementWith (some "star.svg") :=
    Except.ok.inj (own.symm.trans rfl)
  have done : (Symbolizer.ofElement (crowded.overlay marker)).result = .ok (.mark {
      wellKnownName := some "Star"
      color := some "#ffcc00"
      fillOpacity := some .zero
      strokeColor := some "#000000"
      rotate := some .one }) := by
    rw [same]
    exact Expression.eq_ok_of_toOption (by decide +kernel)
  have named : ¬(hiddenStar.wellKnownName = none ∧ crowded.makesIcons) := by simp [hiddenStar]
  have kept := reads _ done
  rw [if_neg named] at kept
  obtain ⟨kept, read, extends_⟩ := kept
  exact ⟨_, inner, outer, marker, kept, built, drawn, finite, found, there, member, own,
    read ▸ done, extends_⟩

/-- Where markers may overlap, a dot is read as an icon without the border. -/
theorem ofElement_overlay_dot : ∃ root inner outer marker,
    (element crowded { rules := [dotsAndStars] }).result = .ok root ∧
    (find root).result = .ok inner ∧ inner.children[0]? = some outer ∧
    dot.element crowded.glyphs = .ok marker ∧
    outer.children[0]? = some (crowded.overlay marker) ∧
    (Symbolizer.ofElement (crowded.overlay marker)).result = .ok (.icon {
      color := some "#ffcc00", size := some .one, allowOverlap := some true }) :=
  ⟨_, _, _, _, rfl, rfl, rfl, rfl, rfl, rfl⟩

end Style

end CartoStyle
