import CartoStyle.Proofs.Stylesheet.Document

/-!
# Styles that lose nothing

A style is read from its document as it is if it says nothing that a stylesheet has no place for
(`Style.isLossless`): no visibility, no outline, no graphic with more than its path, no inequality,
no string that a document changes. What the options add must not be something that the reader looks
up (`Style.isSparedBy`); then the whole way there and back leads to the same style
(`Style.ofXml_toXml_of_isLossless`).
-/

namespace CartoStyle

open Stylesheet
open Text (Charset)
open Xml (AttrValue Element isXmlChar isXmlText)

/-! ## Strings -/

namespace Xml

/-- A string that is read as it is where it is the value of an attribute. -/
def isPlainValue (text : String) : Bool :=
  text.toList.all fun c => isXmlChar c && c != '\t' && c != '\n' && c != '\r'

/-- A string that is read as it is inside a text. -/
def isPlainContent (text : String) : Bool := text.toList.all fun c => isXmlChar c && c != '\r'

variable {text : String}

theorem isXmlText_of_isPlainValue (plain : isPlainValue text) : isXmlText text :=
  Charset.xml_holds_of_plain plain

theorem isXmlText_of_isPlainContent (plain : isPlainContent text) : isXmlText text := by
  simp only [isPlainContent, List.all_eq_true, Bool.and_eq_true] at plain
  exact List.all_eq_true.mpr fun c member => (plain c member).1

theorem settled_of_isPlainValue (plain : isPlainValue text) :
    Carriage.document.settled text = text :=
  (congrArg String.ofList (settledValue_of_plain plain)).trans String.ofList_toList

theorem inner_of_isPlainContent (plain : isPlainContent text) :
    Carriage.document.inner text = text := by
  have absent : '\r' ∉ text.toList := by
    intro member
    have passes := List.all_eq_true.mp plain '\r' member
    simp at passes
  exact (congrArg String.ofList (interior_of_not_mem absent)).trans String.ofList_toList

theorem map_settled_of_all {part : Option String} (plain : part.all isPlainValue) :
    part.map Carriage.document.settled = part := by
  cases part with
  | none => rfl
  | some text => exact congrArg some (settled_of_isPlainValue plain)

theorem all_isXmlText_of_all {part : Option String} (plain : part.all isPlainValue) :
    part.all isXmlText := by
  cases part with
  | none => rfl
  | some text => exact isXmlText_of_isPlainValue plain

end Xml

open Xml (isPlainValue isPlainContent)

/-- Names that a list may hold are read as they are. -/
theorem Stylesheet.Carriage.names_of_all {names : List String}
    (plain : names.all fun name => isPlainValue name && isListed name) :
    Carriage.document.names names = names := by
  have each := fun name member => Bool.and_eq_true_iff.mp (List.all_eq_true.mp plain name member)
  have joined : isPlainValue (", ".intercalate names) := by
    apply List.all_eq_true.mpr
    intro c member
    rcases mem_intercalate member with ⟨name, present, inside⟩ | between
    · exact List.all_eq_true.mp (each name present).1 c inside
    · have separator : isPlainValue ", " := by decide
      exact List.all_eq_true.mp separator c between
  rw [Carriage.names, Xml.settled_of_isPlainValue joined,
    namesOf_intercalate fun name member => (each name member).2]

/-! ## Graphics -/

/-- Whether there is a glyph for a name. -/
def Stylesheet.hasGlyph (name : String) : Bool := (glyphFile? name).isSome

/-- A path that is read as it is, and not as a mark. -/
def Stylesheet.isImagePath (path : String) : Bool := isPlainValue path && (markOfPath? path).isNone

namespace Graphic

/-- A graphic that is no more than a mark with a glyph or the path of an image. -/
def isLossless : Graphic → Bool
  | .mark symbol =>
    symbol.wellKnownName.any hasGlyph && symbol == { wellKnownName := symbol.wellKnownName }
  | .icon image => image.image.any isImagePath && image == { image := image.image }

theorem returned_of_isLossless {graphic : Graphic} (lossless : graphic.isLossless) :
    graphic.returned .document = some graphic := by
  cases graphic with
  | mark symbol =>
    obtain ⟨known, bare⟩ := Bool.and_eq_true_iff.mp lossless
    have bare := beq_iff_eq.mp bare
    obtain ⟨name, named, -⟩ := (Option.any_eq_true _ _).mp known
    rw [returned, named, Option.map_some, bare, named]
  | icon image =>
    obtain ⟨known, bare⟩ := Bool.and_eq_true_iff.mp lossless
    have bare := beq_iff_eq.mp bare
    obtain ⟨path, given, shown⟩ := (Option.any_eq_true _ _).mp known
    obtain ⟨plain, unknown⟩ := Bool.and_eq_true_iff.mp shown
    rw [returned, given, Option.map_some, Xml.settled_of_isPlainValue plain, ofFile,
      Option.isNone_iff_eq_none.mp unknown, bare, given]

theorem bind_returned_of_all {graphic : Option Graphic} (lossless : graphic.all isLossless) :
    graphic.bind (returned .document) = graphic := by
  cases graphic with
  | none => rfl
  | some graphic => exact returned_of_isLossless lossless

theorem all_graphicTexts {graphic : Option Graphic} (lossless : graphic.all isLossless) :
    (Symbolizer.graphicTexts graphic).all isXmlText := by
  rcases graphic with _ | symbol | image
  · rfl
  · rfl
  · obtain ⟨path, given, shown⟩ := (Option.any_eq_true _ _).mp (Bool.and_eq_true_iff.mp lossless).1
    have plain := (Bool.and_eq_true_iff.mp shown).1
    simp [Symbolizer.graphicTexts, given, Xml.isXmlText_of_isPlainValue plain]

theorem exists_path? {graphic : Option Graphic} (lossless : graphic.all isLossless)
    (glyphs : Glyphs) :
    ∃ path, path? glyphs graphic = .ok path := by
  rcases graphic with _ | symbol | image
  · exact ⟨none, rfl⟩
  · obtain ⟨name, named, known⟩ := (Option.any_eq_true _ _).mp (Bool.and_eq_true_iff.mp lossless).1
    obtain ⟨file, found⟩ := Option.isSome_iff_exists.mp known
    exact ⟨some (glyphs.path file),
      by simp only [path?, file?, named, Glyphs.resolve_of_glyphFile? found]; rfl⟩
  · exact ⟨image.image, rfl⟩

end Graphic

/-! ## Symbolizers -/

/-- An area without an outline whose graphic is no more than its path. -/
def Fill.isLossless (area : Fill) : Bool :=
  area.color.all isPlainValue && area.graphicFill.all Graphic.isLossless && !area.hasOutline &&
    area.visibility.isNone

/-- A line with dash lengths, if any, and at most one graphic, that is no more than its path. -/
def Line.isLossless (stroke : Line) : Bool :=
  stroke.color.all isPlainValue && stroke.graphicFill.all Graphic.isLossless &&
    stroke.graphicStroke.all Graphic.isLossless &&
    (stroke.graphicFill.isNone || stroke.graphicStroke.isNone) && soundDashes stroke.dasharray &&
    stroke.visibility.isNone

/-- A mark that has no name or one with a glyph. -/
def Mark.isLossless (symbol : Mark) : Bool :=
  symbol.wellKnownName.all hasGlyph && symbol.color.all isPlainValue &&
    symbol.strokeColor.all isPlainValue && soundRotation symbol.rotate && symbol.visibility.isNone

/-- An icon that can be told from a mark. -/
def Icon.isLossless (image : Icon) : Bool :=
  image.image.all isImagePath && (image.image.isSome || image.allowOverlap.isSome) &&
    image.color.all isPlainValue && soundRotation image.rotate && image.visibility.isNone

def Raster.isLossless (cover : Raster) : Bool := cover.visibility.isNone

/-- A label whose property and whose fonts have names that can be told apart. -/
def Label.isLossless (label : Label) : Bool :=
  label.property.all
    (fun property => isPlainContent property && plainProperty? property == some property) &&
    label.color.all isPlainValue && label.haloColor.all isPlainValue &&
    label.font.all (·.all fun name => isPlainValue name && isListed name) && label.visibility.isNone

/-- A symbolizer that says nothing that a stylesheet has no place for. -/
def Symbolizer.isLossless : Symbolizer → Bool
  | .fill area => area.isLossless
  | .line stroke => stroke.isLossless
  | .mark symbol => symbol.isLossless
  | .icon image => image.isLossless
  | .raster cover => cover.isLossless
  | .text label => label.isLossless

/-! ## Symbolizers read back -/

theorem Fill.returned_of_isLossless {area : Fill} (lossless : area.isLossless) :
    area.returned .document = area := by
  simp only [isLossless, Bool.and_eq_true, Bool.not_eq_true', hasOutline, Bool.or_eq_false_iff,
    Option.isSome_eq_false_iff, Option.isNone_iff_eq_none] at lossless
  obtain ⟨⟨⟨color, graphic⟩, outline⟩, visible⟩ := lossless
  rw [returned, Xml.map_settled_of_all color, Graphic.bind_returned_of_all graphic, visible,
    shownOpacity_none]
  cases area
  simp_all

theorem Line.returned_of_isLossless {stroke : Line} (lossless : stroke.isLossless) :
    stroke.returned .document = stroke := by
  simp only [isLossless, Bool.and_eq_true, Bool.or_eq_true, Option.isNone_iff_eq_none] at lossless
  obtain ⟨⟨⟨⟨⟨color, filling⟩, following⟩, single⟩, -⟩, visible⟩ := lossless
  rw [returned, Xml.map_settled_of_all color, Graphic.bind_returned_of_all filling,
    Graphic.bind_returned_of_all following, visible, shownOpacity_none]
  cases stroke
  rcases single with absent | absent <;> simp_all

theorem Mark.returned_of_isLossless {symbol : Mark} (lossless : symbol.isLossless) :
    symbol.returned .document = symbol := by
  simp only [isLossless, Bool.and_eq_true, Option.isNone_iff_eq_none] at lossless
  obtain ⟨⟨⟨⟨-, color⟩, strokeColor⟩, -⟩, visible⟩ := lossless
  rw [returned, Xml.map_settled_of_all color, Xml.map_settled_of_all strokeColor, visible,
    shownOpacity_none]
  cases symbol
  simp_all

theorem Icon.returned_of_isLossless {image : Icon} (lossless : image.isLossless) :
    image.returned .document = .icon image := by
  simp only [isLossless, Bool.and_eq_true, Bool.or_eq_true, Option.isNone_iff_eq_none] at lossless
  obtain ⟨⟨⟨⟨path, told⟩, color⟩, -⟩, visible⟩ := lossless
  have shown : image.image.all isPlainValue := by
    cases given : image.image with
    | none => rfl
    | some source =>
      rw [given] at path
      exact (Bool.and_eq_true_iff.mp path).1
  have stays : image.staysIcon := by
    rw [staysIcon]
    cases given : image.image with
    | none => exact told.resolve_left (by simp [given])
    | some source =>
      rw [given] at path
      exact (Bool.and_eq_true_iff.mp path).2
  rw [returned, if_pos stays, Xml.map_settled_of_all shown, Xml.map_settled_of_all color, visible,
    shownOpacity_none]
  cases image
  simp_all

theorem Raster.returned_of_isLossless {cover : Raster} (lossless : cover.isLossless) :
    cover.returned = cover := by
  have visible := Option.isNone_iff_eq_none.mp lossless
  rw [returned, visible, shownOpacity_none]
  cases cover
  simp_all

theorem Label.returned_of_isLossless {label : Label} (lossless : label.isLossless) :
    label.returned .document = label := by
  simp only [isLossless, Bool.and_eq_true, Option.isNone_iff_eq_none] at lossless
  obtain ⟨⟨⟨⟨property, color⟩, haloColor⟩, font⟩, visible⟩ := lossless
  have named : (label.property.bind fun property =>
      plainProperty? (Carriage.document.inner property)) = label.property := by
    cases given : label.property with
    | none => rfl
    | some name =>
      rw [given] at property
      obtain ⟨plain, kept⟩ := Bool.and_eq_true_iff.mp property
      rw [Option.bind_some, Xml.inner_of_isPlainContent plain, beq_iff_eq.mp kept]
  have listed : label.font.map Carriage.document.names = label.font := by
    cases given : label.font with
    | none => rfl
    | some names =>
      rw [given] at font
      exact congrArg some (Carriage.names_of_all font)
  rw [returned, named, listed, Xml.map_settled_of_all color, Xml.map_settled_of_all haloColor,
    visible,
    shownOpacity_none]
  cases label
  simp_all

theorem Line.all_graphic? (stroke : Line) (filling : stroke.graphicFill.all Graphic.isLossless)
    (following : stroke.graphicStroke.all Graphic.isLossless) :
    stroke.graphic?.all Graphic.isLossless := by
  rw [graphic?]
  cases given : stroke.graphicFill with
  | none => exact following
  | some graphic => rwa [given] at filling

namespace Symbolizer

variable {symbolizer : Symbolizer}

/-- A symbolizer that loses nothing is read back alone and as it is. -/
theorem returned_of_isLossless (lossless : symbolizer.isLossless) :
    symbolizer.returned .document = [symbolizer] := by
  cases symbolizer with
  | fill area =>
    have bare : area.hasOutline = false := by
      simp only [isLossless, Fill.isLossless, Bool.and_eq_true, Bool.not_eq_true'] at lossless
      exact lossless.1.2
    rw [returned, Fill.returned_of_isLossless lossless, bare]
    rfl
  | line stroke => rw [returned, Line.returned_of_isLossless lossless]
  | mark symbol => rw [returned, Mark.returned_of_isLossless lossless]
  | icon image => rw [returned, Icon.returned_of_isLossless lossless]
  | raster cover => rw [returned, Raster.returned_of_isLossless lossless]
  | text label => rw [returned, Label.returned_of_isLossless lossless]

theorem isSound_of_isLossless (lossless : symbolizer.isLossless) : symbolizer.isSound := by
  cases symbolizer with
  | fill area =>
    simp only [isLossless, Fill.isLossless, Bool.and_eq_true, Bool.not_eq_true', Fill.hasOutline,
      Bool.or_eq_false_iff, Option.isSome_eq_false_iff, Option.isNone_iff_eq_none] at lossless
    rw [isSound, lossless.1.2.2]
    rfl
  | line stroke => exact (Bool.and_eq_true_iff.mp (Bool.and_eq_true_iff.mp lossless).1).2
  | mark symbol => exact (Bool.and_eq_true_iff.mp (Bool.and_eq_true_iff.mp lossless).1).2
  | icon image => exact (Bool.and_eq_true_iff.mp (Bool.and_eq_true_iff.mp lossless).1).2
  | raster cover => rfl
  | text label => rfl

/-- Documents may hold the strings of a symbolizer that loses nothing. -/
theorem isXml_of_isLossless (lossless : symbolizer.isLossless) : symbolizer.isXml := by
  cases symbolizer with
  | fill area =>
    simp only [isLossless, Fill.isLossless, Bool.and_eq_true, Bool.not_eq_true', Fill.hasOutline,
      Bool.or_eq_false_iff, Option.isSome_eq_false_iff, Option.isNone_iff_eq_none] at lossless
    obtain ⟨⟨⟨color, graphic⟩, outline⟩, -⟩ := lossless
    simp [isXml, valueTexts, contentTexts, Xml.all_isXmlText_of_all color,
      Graphic.all_graphicTexts graphic, outline.1.1.1]
  | line stroke =>
    simp only [isLossless, Line.isLossless, Bool.and_eq_true] at lossless
    obtain ⟨⟨⟨⟨⟨color, filling⟩, following⟩, -⟩, -⟩, -⟩ := lossless
    simp [isXml, valueTexts, contentTexts, Xml.all_isXmlText_of_all color,
      Graphic.all_graphicTexts (stroke.all_graphic? filling following)]
  | mark symbol =>
    simp only [isLossless, Mark.isLossless, Bool.and_eq_true] at lossless
    obtain ⟨⟨⟨⟨-, color⟩, strokeColor⟩, -⟩, -⟩ := lossless
    simp [isXml, valueTexts, contentTexts, Xml.all_isXmlText_of_all color,
      Xml.all_isXmlText_of_all strokeColor]
  | icon image =>
    simp only [isLossless, Icon.isLossless, Bool.and_eq_true] at lossless
    obtain ⟨⟨⟨⟨path, -⟩, color⟩, -⟩, -⟩ := lossless
    have shown : image.image.all isXmlText := by
      cases given : image.image with
      | none => rfl
      | some source =>
        rw [given] at path
        exact Xml.isXmlText_of_isPlainValue (Bool.and_eq_true_iff.mp path).1
    simp [isXml, valueTexts, contentTexts, Xml.all_isXmlText_of_all color, shown]
  | raster cover => rfl
  | text label =>
    simp only [isLossless, Label.isLossless, Bool.and_eq_true] at lossless
    obtain ⟨⟨⟨⟨property, color⟩, haloColor⟩, font⟩, -⟩ := lossless
    have named : label.property.all isXmlText := by
      cases given : label.property with
      | none => rfl
      | some name =>
        rw [given] at property
        exact Xml.isXmlText_of_isPlainContent (Bool.and_eq_true_iff.mp property).1
    have listed : (label.font.getD []).all isXmlText := by
      cases given : label.font with
      | none => rfl
      | some names =>
        rw [given] at font
        exact List.all_eq_true.mpr fun name member =>
          Xml.isXmlText_of_isPlainValue
            (Bool.and_eq_true_iff.mp (List.all_eq_true.mp font name member)).1
    simp only [isXml, valueTexts, contentTexts, List.all_append, all_toList, listed, named,
      Xml.all_isXmlText_of_all color, Xml.all_isXmlText_of_all haloColor, Bool.and_true]

/-- A symbolizer that loses nothing can be written. -/
theorem exists_elements_of_isLossless (lossless : symbolizer.isLossless) (glyphs : Glyphs) :
    ∃ elements, symbolizer.elements glyphs = .ok elements := by
  cases symbolizer with
  | fill area =>
    simp only [isLossless, Fill.isLossless, Bool.and_eq_true] at lossless
    exact area.exists_elements (Graphic.exists_path? lossless.1.1.2 glyphs)
  | line stroke =>
    simp only [isLossless, Line.isLossless, Bool.and_eq_true] at lossless
    obtain ⟨⟨⟨⟨⟨-, filling⟩, following⟩, -⟩, -⟩, -⟩ := lossless
    exact stroke.exists_elements
      (Graphic.exists_path? (stroke.all_graphic? filling following) glyphs)
  | mark symbol =>
    simp only [isLossless, Mark.isLossless, Bool.and_eq_true] at lossless
    obtain ⟨⟨⟨⟨known, -⟩, -⟩, -⟩, -⟩ := lossless
    apply symbol.exists_elements
    rw [Graphic.file?]
    cases named : symbol.wellKnownName with
    | none => exact ⟨none, rfl⟩
    | some name =>
      rw [named] at known
      obtain ⟨file, found⟩ := Option.isSome_iff_exists.mp known
      exact ⟨some (glyphs.path file), by simp only [Glyphs.resolve_of_glyphFile? found]; rfl⟩
  | icon image => exact ⟨_, rfl⟩
  | raster cover => exact ⟨_, rfl⟩
  | text label => exact ⟨_, rfl⟩

/-- The options add nothing to the elements of a symbolizer that the reader looks up in them. -/
def isSparedBy (options : Options) (symbolizer : Symbolizer) : Bool :=
  match symbolizer.elements options.glyphs with
  | .ok elements => elements.all options.leaves
  | .error _ => true

end Symbolizer

/-! ## Filters -/

namespace Filter

/-- A comparison of a property with a value, neither of which a document changes, by an operator
other than inequality. -/
def isPlainComparison (operator : ComparisonOperator) (property : String) (value : FilterValue) :
    Bool :=
  operator != .notEqual && isPlainContent property &&
    match value with
    | .text content => isPlainContent content
    | _ => true

/-- A filter that an expression can hold within the limit of its nesting and a document as it is. -/
def isLossless (filter : Filter) : Bool :=
  filter.isExpressible && filter.nesting ≤ Expression.depthLimit && filter.every isPlainComparison

/-- A filter without inequalities is its own desugared form. -/
theorem desugared_of_every {filter : Filter}
    (equal : filter.every fun operator _ _ => operator != .notEqual) :
    filter.desugared = filter := by
  induction filter using inductionOn with
  | comparison operator property value =>
    exact desugared_comparison (bne_iff_ne.mp equal)
  | combination operator operands ih =>
    have each := everyOperand_iff.mp equal
    have same : operands.map desugared = operands.map id :=
      List.map_congr_left fun operand member => ih operand member (each operand member)
    rw [desugared, desugaredOperands_eq_map, same, List.map_id]
  | negation operand ih => rw [desugared, ih equal]

variable {filter : Filter}

theorem mapTexts_of_isLossless (lossless : filter.isLossless) :
    filter.mapTexts Carriage.document.inner = filter := by
  apply mapTexts_of_every (Bool.and_eq_true_iff.mp lossless).2
  intro operator property value plain
  obtain ⟨names, content⟩ := Bool.and_eq_true_iff.mp plain
  refine ⟨Xml.inner_of_isPlainContent (Bool.and_eq_true_iff.mp names).2, ?_⟩
  cases value with
  | text content' => exact congrArg FilterValue.text (Xml.inner_of_isPlainContent content)
  | null => rfl
  | number value => rfl

theorem returned_of_isLossless (lossless : filter.isLossless) :
    filter.returned .document = filter := by
  rw [returned, mapTexts_of_isLossless lossless]
  apply desugared_of_every
  refine every_of_every ?_ (Bool.and_eq_true_iff.mp lossless).2
  intro operator property value plain
  exact (Bool.and_eq_true_iff.mp (Bool.and_eq_true_iff.mp plain).1).1

theorem isSound_of_isLossless (lossless : filter.isLossless) : filter.isSound .document := by
  rw [isSound, mapTexts_of_isLossless lossless]
  exact (Bool.and_eq_true_iff.mp lossless).1

theorem isXml_of_isLossless (lossless : filter.isLossless) :
    filter.every Expression.isXmlComparison := by
  refine every_of_every ?_ (Bool.and_eq_true_iff.mp lossless).2
  intro operator property value plain
  obtain ⟨names, content⟩ := Bool.and_eq_true_iff.mp plain
  apply Bool.and_eq_true_iff.mpr
    ⟨Xml.isXmlText_of_isPlainContent (Bool.and_eq_true_iff.mp names).2, _⟩
  cases value with
  | text content' => exact Xml.isXmlText_of_isPlainContent content
  | null => rfl
  | number value => rfl

theorem exists_render_of_isLossless (lossless : filter.isLossless) :
    ∃ text, Expression.render filter = .ok text := by
  simp only [isLossless, isExpressible, Bool.and_eq_true] at lossless
  obtain ⟨⟨⟨⟨⟨paired, -⟩, -⟩, -⟩, -⟩, -⟩ := lossless
  exact Expression.exists_render_iff.mpr paired

end Filter

/-! ## Rules and styles -/

namespace Rule

/-- A rule that says nothing that a stylesheet has no place for; a range has a bound. -/
def isLossless (rule : Rule) : Bool :=
  rule.name.all isPlainValue && rule.filter.all Filter.isLossless &&
    rule.scaleDenominator.all (fun range => !range.isUnbounded) &&
    rule.symbolizers.all Symbolizer.isLossless

variable {rule : Rule}

theorem returned_of_isLossless (lossless : rule.isLossless) : rule.returned .document = rule := by
  simp only [isLossless, Bool.and_eq_true] at lossless
  obtain ⟨⟨⟨name, filter⟩, range⟩, symbolizers⟩ := lossless
  have expressed : rule.filter.map (Filter.returned .document) = rule.filter := by
    cases given : rule.filter with
    | none => rfl
    | some filter' =>
      rw [given] at filter
      exact congrArg some (Filter.returned_of_isLossless filter)
  have bounded : ScaleRange.returned rule.scaleDenominator = rule.scaleDenominator := by
    cases given : rule.scaleDenominator with
    | none => rfl
    | some bounds =>
      rw [given] at range
      exact if_pos range
  have drawn : rule.symbolizers.flatMap (Symbolizer.returned .document) = rule.symbolizers :=
    Symbolizer.flatMap_returned_of_forall fun symbolizer member =>
      Symbolizer.returned_of_isLossless (List.all_eq_true.mp symbolizers symbolizer member)
  rw [returned, Xml.map_settled_of_all name, expressed, bounded, drawn]

theorem isSound_of_isLossless (lossless : rule.isLossless) : rule.isSound .document := by
  simp only [isLossless, Bool.and_eq_true, List.all_eq_true] at lossless
  obtain ⟨⟨⟨-, filter⟩, -⟩, symbolizers⟩ := lossless
  apply Bool.and_eq_true_iff.mpr ⟨_, List.all_eq_true.mpr fun symbolizer member =>
    Symbolizer.isSound_of_isLossless (symbolizers symbolizer member)⟩
  cases given : rule.filter with
  | none => rfl
  | some filter' =>
    rw [given] at filter
    exact Filter.isSound_of_isLossless filter

theorem isXml_of_isLossless (lossless : rule.isLossless) : rule.isXml := by
  simp only [isLossless, Bool.and_eq_true, List.all_eq_true] at lossless
  obtain ⟨⟨⟨name, filter⟩, -⟩, symbolizers⟩ := lossless
  have expressed : rule.filter.all (Filter.every Expression.isXmlComparison) := by
    cases given : rule.filter with
    | none => rfl
    | some filter' =>
      rw [given] at filter
      exact Filter.isXml_of_isLossless filter
  have drawn : rule.symbolizers.all Symbolizer.isXml :=
    List.all_eq_true.mpr fun symbolizer member =>
    Symbolizer.isXml_of_isLossless (symbolizers symbolizer member)
  rw [isXml, Xml.all_isXmlText_of_all name, expressed, drawn]
  rfl

theorem exists_element_of_isLossless (lossless : rule.isLossless) (glyphs : Glyphs) :
    ∃ element, rule.element glyphs = .ok element := by
  simp only [isLossless, Bool.and_eq_true, List.all_eq_true] at lossless
  obtain ⟨⟨⟨-, filter⟩, -⟩, symbolizers⟩ := lossless
  obtain ⟨elements, drawn⟩ : ∃ elements, drawings glyphs 0 rule.symbolizers = .ok elements :=
    Symbolizer.exists_drawings_iff.mpr fun symbolizer member =>
      Symbolizer.exists_elements_of_isLossless (symbolizers symbolizer member) glyphs
  have text : ∃ text, rule.expression = .ok text := by
    rw [expression]
    cases given : rule.filter with
    | none => exact ⟨none, rfl⟩
    | some filter' =>
      rw [given] at filter
      obtain ⟨rendered, here⟩ := Filter.exists_render_of_isLossless filter
      exact ⟨some rendered, by simp only [here]; rfl⟩
  obtain ⟨text, expressed⟩ := text
  exact ⟨_, by rw [element_eq, expressed, drawn]; rfl⟩

/-- The reader looks up no attributes in the conditions of a rule. -/
theorem leaves_of_mem_conditions {options : Options} {text : Option String} {child : Element}
    (member : child ∈ rule.scaleDenominator.elim [] ScaleRange.elements ++
      (text.map fun text => { name := filterTag, text := some text }).toList) :
    options.leaves child := by
  have bare (tag : String) (condition : tag ∈ conditionTags) (content : Option String) :
      options.leaves { name := tag, text := content } := by
    have unknown :
        ∀ tag ∈ conditionTags, (Vocabulary.ofKeyword? tag : Option DrawingTag) = none := by
      decide
    rw [Options.leaves, consulted, unknown tag condition]
    rfl
  have every : ((rule.scaleDenominator.elim [] ScaleRange.elements).all options.leaves) := by
    have min (bound : Binary64) := bare minScaleTag (by decide) (some bound.text)
    have max (bound : Binary64) := bare maxScaleTag (by decide) (some bound.text)
    rcases rule.scaleDenominator with _ | ⟨_ | lower, _ | upper⟩ <;>
      simp [ScaleRange.elements, ScaleRange.boundElement, min, max]
  rcases List.mem_append.mp member with bound | filter
  · exact List.all_eq_true.mp every child bound
  · cases text with
    | none => cases filter
    | some text =>
      rw [List.mem_singleton.mp filter]
      exact bare filterTag (by decide) (some text)

end Rule

namespace Style

/-- A style that says nothing that a stylesheet has no place for. -/
def isLossless (style : Style) : Bool := isPlainValue style.name && style.rules.all Rule.isLossless

/-- The options add nothing to the elements of a style that the reader looks up in them. -/
def isSparedBy (options : Options) (style : Style) : Bool :=
  style.keepsName options &&
    style.rules.all fun rule => rule.symbolizers.all (Symbolizer.isSparedBy options)

variable {options : Options} {style : Style}

theorem returned_of_isLossless (lossless : style.isLossless) :
    style.returned .document = style := by
  obtain ⟨name, rules⟩ := Bool.and_eq_true_iff.mp lossless
  have each : style.rules.map (Rule.returned .document) = style.rules.map id :=
    List.map_congr_left fun rule member =>
      Rule.returned_of_isLossless (List.all_eq_true.mp rules rule member)
  rw [returned, Xml.settled_of_isPlainValue name, each, List.map_id]

/-- What the options add to the elements of a spared style does not matter to the reader. -/
theorem leaves_of_isSparedBy (spared : style.isSparedBy options) {children : List Element}
    (built : ruleElements options.glyphs 0 style.rules = .ok children) :
    ∀ rule ∈ children, ∀ child ∈ rule.children, options.leaves child := by
  intro element present child member
  obtain ⟨rule, given, made⟩ := exists_of_mem_ruleElements built present
  obtain ⟨text, elements, -, drawn, rfl⟩ := Rule.element_cases made
  rcases List.mem_append.mp member with condition | draws
  · exact Rule.leaves_of_mem_conditions condition
  · obtain ⟨symbolizer, listed, own, shown, inside⟩ := Symbolizer.exists_of_mem_drawings drawn draws
    have each := List.all_eq_true.mp (Bool.and_eq_true_iff.mp spared).2 rule given
    have left := List.all_eq_true.mp each symbolizer listed
    rw [Symbolizer.isSparedBy, shown] at left
    exact List.all_eq_true.mp left child inside

/-- A style that says nothing that a stylesheet has no place for is written, and read from its
document as it is, if documents may hold what is configured and the options spare what the reader
looks up. -/
theorem ofXml_toXml_of_isLossless (lossless : style.isLossless) (possible : options.isXml)
    (spared : style.isSparedBy options) :
    ∃ text, (style.toXml options).result = .ok text ∧ (ofXml text).result = .ok style := by
  obtain ⟨name, rules⟩ := Bool.and_eq_true_iff.mp lossless
  have each := List.all_eq_true.mp rules
  have held : style.isXml := Bool.and_eq_true_iff.mpr ⟨Xml.isXmlText_of_isPlainValue name,
    List.all_eq_true.mpr fun rule member => Rule.isXml_of_isLossless (each rule member)⟩
  have sound : style.isSound .document :=
    List.all_eq_true.mpr fun rule member => Rule.isSound_of_isLossless (each rule member)
  have built : ∃ children, ruleElements options.glyphs 0 style.rules = .ok children :=
    exists_ruleElements_iff.mpr fun rule member =>
      Rule.exists_element_of_isLossless (each rule member) options.glyphs
  have back := exists_toXml_of_isSound possible held (Bool.and_eq_true_iff.mp spared).1
    (fun _ => leaves_of_isSparedBy spared) sound built
  rwa [returned_of_isLossless lossless] at back

/-- Roads and their names, within a range of scales. -/
def roads : Style where
  name := "<roads>"
  rules := [{
    name := some "main & other"
    filter := some (.combination .or [.negation (.comparison .equal "class" (.text "it's")),
      .comparison .lessThan "lanes" (.number .one)])
    scaleDenominator := some { max := some .one }
    symbolizers := [
      .line {
        dasharray := some [.one, .one]
        graphicFill := some (.mark { wellKnownName := some "Star" }) },
      .icon { image := some "shield.png", rotate := some .zero },
      .text { property := some "name", font := some ["Sans", "Serif Bold"],
              offset := some (.one, .zero), anchor := some .topLeft }] }]

/-- A map with a projection, glyphs in a directory of their own and labels that are not clipped. -/
def projected : Options where
  mapOptions := .ofList [("srs", .text "+proj=merc")]
  symbolizerOptions := .ofList [(.text, .ofList [("clip", .flag false)])]
  glyphBasePath := some "glyphs/"

theorem ofXml_toXml_roads : roads.isLossless ∧ projected.isXml ∧ roads.isSparedBy projected ∧
    ∃ text, (roads.toXml projected).result = .ok text ∧ (ofXml text).result = .ok roads := by
  have lossless : roads.isLossless := by decide
  have possible : projected.isXml := by decide
  have spared : roads.isSparedBy projected := by decide
  exact ⟨lossless, possible, spared, ofXml_toXml_of_isLossless lossless possible spared⟩

end Style

end CartoStyle
