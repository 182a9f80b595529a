import CartoStyle.Proofs.Stylesheet.Alike

/-!
# Two ways to a style

A style that is written as a tree can be read from the tree, or from the document of the tree. Where
the strings of the style and of the options have no characters that a document changes
(`Charset.plain`), the document keeps every value and every text of the tree, though not the types
of values (`Style.every_hasPlainTexts_root`). Then both ways lead to the same result, unless the
tree is refused for a truth value that is configured as a number
(`Style.result_ofXml_eq_ofElement_iff`).
-/

namespace CartoStyle

open Stylesheet
open Text (Charset)
open Xml (AttrValue Attributes Element hasPlainNames hasValuesOf settledText)

/-! ## Strings -/

namespace Xml

theorem AttrValue.isSettled_of_isOf {value : AttrValue} (plain : value.isOf .plain) :
    value.IsSettled :=
  settledValue_of_plain plain

theorem hasXmlValues_of_plain {attributes : Attributes} (plain : hasValuesOf .plain attributes) :
    hasXmlValues attributes :=
  List.all_eq_true.mpr fun entry member =>
    Charset.xml_holds_of_plain (List.all_eq_true.mp plain entry member)

/-- A text between tags that stays in a document as it is. -/
def isPlainText (text : String) : Bool :=
  Charset.plain.holds text && settledText text == some text

theorem isPlainText_of_trim_eq {text : String} (plain : Charset.plain.holds text)
    (trimmed : Text.trim text.toList = text.toList) (nonempty : text.toList ≠ []) :
    isPlainText text := by
  have absent : '\r' ∉ text.toList := by
    intro member
    have has := Charset.has_of_holds plain member
    simp [Charset.plain] at has
  rw [isPlainText, plain, settledText, lineEnds_of_not_mem absent, OpenElement.text?_singleton,
    trimmed]
  simp [nonempty]

theorem isPlainText_of_isFramed {text : String} (plain : Charset.plain.holds text)
    (framed : Expression.IsFramed text.toList) : isPlainText text :=
  isPlainText_of_trim_eq plain framed.trim_eq framed.ne_nil

theorem isPlainText_text (x : Binary64) : isPlainText x.text := by
  apply isPlainText_of_trim_eq (Charset.holds_text x)
  · rw [Binary64.text, String.toList_ofList,
      Text.trim_of_isVisible fun _ => Binary64.isVisible_of_mem_chars]
  · rw [Binary64.text, String.toList_ofList]
    exact Binary64.chars_ne_nil x

namespace Element

/-- An element whose values and whose text stay in a document as they are. -/
def hasPlainTexts (_ : String) (attributes : Attributes) (text : Option String) : Bool :=
  hasValuesOf .plain attributes && text.all isPlainText

variable {p q : String → Attributes → Option String → Bool}

theorem every_of_every (implies : ∀ name attributes text, p name attributes text →
    q name attributes text) {element : Element} (all : element.every p) : element.every q := by
  revert all
  refine @Element.rec (fun element => element.every p → element.every q)
    (fun elements => ∀ element ∈ elements, element.every p → element.every q) ?_ nofun ?_ element
  · intro name attributes text children inner all
    obtain ⟨own, each⟩ := every_iff.mp all
    exact every_iff.mpr
      ⟨implies _ _ _ own, fun child member => inner child member (each child member)⟩
  · intro first others here there
    exact List.forall_mem_cons.mpr ⟨here, there⟩

theorem hasXmlChars_of_hasPlainTexts {name : String} {attributes : Attributes}
    {text : Option String} (plain : hasPlainTexts name attributes text) :
    hasXmlChars name attributes text := by
  obtain ⟨values, content⟩ := Bool.and_eq_true_iff.mp plain
  refine Bool.and_eq_true_iff.mpr ⟨hasXmlValues_of_plain values, ?_⟩
  cases text with
  | none => rfl
  | some text => exact Charset.xml_holds_of_plain (Bool.and_eq_true_iff.mp content).1

theorem hasSettledTexts_of_hasPlainTexts {name : String} {attributes : Attributes}
    {text : Option String} (plain : hasPlainTexts name attributes text) :
    hasSettledTexts name attributes text := by
  obtain ⟨values, content⟩ := Bool.and_eq_true_iff.mp plain
  apply Bool.and_eq_true_iff.mpr ⟨List.all_eq_true.mpr _, _⟩
  · intro entry member
    exact beq_iff_eq.mpr (AttrValue.isSettled_of_isOf (List.all_eq_true.mp values entry member))
  · cases text with
    | none => decide
    | some text => exact (Bool.and_eq_true_iff.mp content).2

end Element

end Xml

/-! ## Styles -/

section Strings

variable (charset : Charset)

/-- The strings of a symbolizer that are written consist of characters from a choice. -/
def Symbolizer.isOf (symbolizer : Symbolizer) : Bool :=
  symbolizer.valueTexts.all charset.holds && symbolizer.contentTexts.all charset.holds

/-- The strings of a rule that are written consist of characters from a choice. -/
def Rule.isOf (rule : Rule) : Bool :=
  rule.name.all charset.holds &&
    rule.filter.all (Filter.every (Expression.isComparisonOf charset)) &&
      rule.symbolizers.all (Symbolizer.isOf charset)

/-- The strings of a style that are written consist of characters from a choice. -/
def Style.isOf (style : Style) : Bool :=
  charset.holds style.name && style.rules.all (Rule.isOf charset)

end Strings

/-! ## Trees -/

variable {glyphs : Glyphs} {options : Options} {style : Style}

open Xml.Element (hasPlainTexts)

/-- The text of an element that draws is that of a label, which stands between brackets. -/
theorem Symbolizer.every_hasPlainTexts_elements
    (directory : glyphs.directory.all Charset.plain.holds) {symbolizer : Symbolizer}
    (plain : symbolizer.isOf .plain) {elements : List Element}
    (built : symbolizer.elements glyphs = .ok elements) {element : Element}
    (member : element ∈ elements) : element.every hasPlainTexts := by
  have held := (hasCharsOf_elements directory built).mpr (Bool.and_eq_true_iff.mp plain)
  obtain ⟨bare, text⟩ := (draws_of_mem_elements built member).leaf
  have own := held element member
  rw [every_of_children_eq_nil bare] at own ⊢
  obtain ⟨values, content⟩ := Bool.and_eq_true_iff.mp own
  refine Bool.and_eq_true_iff.mpr ⟨values, ?_⟩
  cases symbolizer with
  | text label =>
    have text : element.text = label.property.map Label.propertyText := text
    rw [text] at content ⊢
    cases given : label.property with
    | none => rfl
    | some property =>
      rw [given] at content
      exact Xml.isPlainText_of_isFramed content
        ⟨'[', property.toList, ']', Carriage.toList_propertyText property, by decide, by decide⟩
  | _ =>
    rw [text]
    rfl

theorem Rule.every_hasPlainTexts_element (directory : glyphs.directory.all Charset.plain.holds)
    {rule : Rule} (plain : rule.isOf .plain) {element : Element}
    (built : rule.element glyphs = .ok element) : element.every hasPlainTexts := by
  simp only [isOf, Bool.and_eq_true] at plain
  obtain ⟨⟨name, filter⟩, symbolizers⟩ := plain
  obtain ⟨text, elements, expressed, drawn, rfl⟩ := element_cases built
  have named : hasPlainTexts ruleTag (rule.elementWith text elements).attributes none := by
    rw [elementWith]
    cases given : rule.name with
    | none => rfl
    | some name' =>
      rw [given] at name
      simpa [hasPlainTexts, hasValuesOf, Dictionary.insert, Dictionary.insertEntry,
        Dictionary.empty] using name
  have range := ScaleRange.all_every_elements (p := hasPlainTexts) rule.scaleDenominator
    fun _ _ bound => Xml.isPlainText_text bound
  have content : text.all fun text => hasPlainTexts filterTag .empty (some text) := by
    cases has : rule.filter with
    | none =>
      rw [expression_of_none has] at expressed
      cases expressed
      rfl
    | some given =>
      obtain ⟨rendered, here, rfl⟩ := exists_render_of_expression has expressed
      rw [has] at filter
      exact Xml.isPlainText_of_isFramed ((Expression.holds_render here).trans filter)
        (Expression.isFramed_of_chars (Expression.render_eq_ok_iff.mp here))
  have draws : elements.all (Element.every hasPlainTexts) := by
    apply List.all_eq_true.mpr
    intro element member
    obtain ⟨symbolizer, present, own, shown, inside⟩ :=
      Symbolizer.exists_of_mem_drawings drawn member
    exact Symbolizer.every_hasPlainTexts_elements directory
      (List.all_eq_true.mp symbolizers symbolizer present) shown inside
  rw [every_elementWith, named, range, content, draws]
  rfl

namespace Style

theorem every_hasPlainTexts_root (directory : glyphs.directory.all Charset.plain.holds)
    (plain : style.isOf .plain) {children : List Element}
    (built : ruleElements glyphs 0 style.rules = .ok children) :
    (root options (style.elementWith children)).every hasPlainTexts := by
  obtain ⟨name, rules⟩ := Bool.and_eq_true_iff.mp plain
  rw [every_root (by decide), Element.every_iff]
  constructor
  · rw [elementWith]
    split
    · rfl
    · simpa [hasPlainTexts, hasValuesOf, Dictionary.insert, Dictionary.insertEntry,
        Dictionary.empty] using name
  · intro child member
    obtain ⟨rule, present, here⟩ := exists_of_mem_ruleElements built member
    exact Rule.every_hasPlainTexts_element directory (List.all_eq_true.mp rules rule present) here

end Style

namespace Stylesheet.Options

theorem areXml_of_areOf_plain {attributes : Attributes} (plain : areOf .plain attributes) :
    areXml attributes := by
  obtain ⟨names, values⟩ := Bool.and_eq_true_iff.mp plain
  exact Bool.and_eq_true_iff.mpr ⟨names, Xml.hasXmlValues_of_plain values⟩

theorem isXml_of_isOf_plain (plain : options.isOf .plain) : options.isXml := by
  simp only [isOf, Bool.and_eq_true, List.all_eq_true] at plain
  obtain ⟨⟨⟨map, style⟩, symbolizer⟩, directory⟩ := plain
  simp only [isXml, Bool.and_eq_true, List.all_eq_true]
  refine ⟨⟨⟨areXml_of_areOf_plain map, areXml_of_areOf_plain style⟩, ?_⟩, ?_⟩
  · exact fun entry member => areXml_of_areOf_plain (symbolizer entry member)
  · rw [Glyphs.isXml]
    cases given : options.glyphs.directory with
    | none => rfl
    | some path =>
      rw [given] at directory
      exact Charset.xml_holds_of_plain directory

theorem every_hasPlainTexts_overlay (plain : options.isOf .plain) {element : Element}
    (before : element.every hasPlainTexts) : (options.overlay element).every hasPlainTexts := by
  apply every_overlay _ before
  intro name attributes text before
  obtain ⟨old, content⟩ := Bool.and_eq_true_iff.mp before
  obtain ⟨-, new⟩ := Bool.and_eq_true_iff.mp (areOf_configured plain name)
  exact Bool.and_eq_true_iff.mpr ⟨Dictionary.all_entries_addMissing old new, content⟩

end Stylesheet.Options

/-! ## Both ways -/

namespace Style

section Ways

variable (plain : style.isOf .plain) (configured : options.isOf .plain) {children : List Element}
  (built : ruleElements options.glyphs 0 style.rules = .ok children)

include plain configured built

theorem every_hasPlainTexts_overlay :
    (options.overlay (root options (style.elementWith children))).every hasPlainTexts := by
  have directory : options.glyphs.directory.all Charset.plain.holds :=
    (Bool.and_eq_true_iff.mp configured).2
  exact Options.every_hasPlainTexts_overlay configured
    (every_hasPlainTexts_root directory plain built)

/-- The document of a tree is read as the tree with its values as texts. -/
theorem result_ofXml_of_plain :
    (ofXml (options.overlay (root options (style.elementWith children))).document).result =
      (ofElement (options.overlay (root options (style.elementWith children))).reread).result := by
  have named : (options.overlay (root options (style.elementWith children))).every
      Element.hasNames :=
    Options.every_hasNames_overlay (Options.isXml_of_isOf_plain configured)
      (every_hasNames_root built)
  have held := Element.every_of_every (fun _ _ _ => Element.hasXmlChars_of_hasPlainTexts)
    (every_hasPlainTexts_overlay plain configured built)
  rw [result_ofXml_overlay named, if_pos held]
  rfl

theorem agrees_ofXml :
    Agrees (ofElement (options.overlay (root options (style.elementWith children)))).result
      (ofXml (options.overlay (root options (style.elementWith children))).document).result := by
  rw [result_ofXml_of_plain plain configured built]
  exact agrees_ofElement (Element.every_of_every
    (fun _ _ _ => Element.hasSettledTexts_of_hasPlainTexts)
    (every_hasPlainTexts_overlay plain configured built))

end Ways

/-- A style that is written as a tree and as a document is read alike from both, with the same
problem if there is one, unless the tree is refused for a truth value that is given as the number
zero or one. -/
theorem result_ofXml_eq_ofElement_iff (plain : style.isOf .plain) (configured : options.isOf .plain)
    {root : Element} (built : (style.element options).result = .ok root) :
    ∃ text, (style.toXml options).result = .ok text ∧
      ((ofXml text).result = (ofElement root).result ↔
        ¬∃ problem, (ofElement root).result = .error problem ∧ problem.isNumberedFlag) := by
  rw [result_element] at built
  obtain ⟨children, made, rfl⟩ := map_eq_ok_iff.mp built
  refine ⟨_, by rw [result_toXml, made]; rfl, ?_⟩
  rw [← (agrees_ofXml plain configured made).ne_iff, not_not]

/-- Places with their names. -/
def places : Style where
  name := "places"
  rules := [{ symbolizers := [.text { property := some "name" }] }]

/-- The element of the places. -/
def placesElement (attributes : Attributes) : Element where
  name := styleTag
  attributes := Dictionary.empty.insert nameAttribute (.text "places")
  children := [{
    name := ruleTag
    children := [{ name := keyword DrawingTag.text, attributes, text := some "[name]" }] }]

/-- Labels overlap as a value says. -/
def overlapping (value : AttrValue) : Options where
  symbolizerOptions := .ofList [(.text, .ofList [("allow-overlap", value)])]
  includeMapContainer := false

theorem result_element_places (value : AttrValue) :
    (places.element (overlapping value)).result =
      .ok (placesElement (.ofList [("allow-overlap", value)])) := rfl

theorem result_ofXml_eq_ofElement_places : ∃ root text, places.isOf .plain ∧
    (overlapping (.flag true)).isOf .plain ∧
    (places.element (overlapping (.flag true))).result = .ok root ∧
    (places.toXml (overlapping (.flag true))).result = .ok text ∧
    (ofXml text).result = (ofElement root).result := by
  have plain : places.isOf .plain := by decide
  have configured : (overlapping (.flag true)).isOf .plain := by decide
  have built := result_element_places (.flag true)
  obtain ⟨text, written, same⟩ := result_ofXml_eq_ofElement_iff plain configured built
  refine ⟨_, text, plain, configured, built, written, same.mpr ?_⟩
  rintro ⟨problem, refused, -⟩
  have read : (ofElement (placesElement (.ofList [("allow-overlap", .flag true)]))).result = .ok {
      places with rules := [{
        symbolizers := [.text { property := some "name", allowOverlap := some true }] }] } := rfl
  cases read.symm.trans refused

theorem reread_placesElement (value : AttrValue) :
    (placesElement (.ofList [("allow-overlap", value)])).reread =
      placesElement (.ofList [("allow-overlap", value.reread)]) := by
  have name : (AttrValue.text "places").reread = .text "places" := by decide +kernel
  have content : settledText "[name]" = some "[name]" := by decide +kernel
  have blank : settledText "" = none := by decide +kernel
  simp only [placesElement, Element.reread, Element.rereadAll, Option.getD_some, Option.getD_none,
    content, blank]
  rw [← name]
  rfl

/-- The number one for a truth value is refused in a tree, and is read from a document. -/
theorem result_ofXml_ne_ofElement_places : ∃ root text, places.isOf .plain ∧
    (overlapping (.number .one)).isOf .plain ∧
    (places.element (overlapping (.number .one))).result = .ok root ∧
    (places.toXml (overlapping (.number .one))).result = .ok text ∧
    (ofElement root).result = .error (.inRule 0 none (.inSymbolizer 0 "TextSymbolizer"
      (.invalidAttribute "TextSymbolizer" "allow-overlap" "1"))) ∧
    (ofXml text).result = .ok { places with rules := [{
      symbolizers := [.text { property := some "name", allowOverlap := some true }] }] } := by
  have one : (AttrValue.number .one).shown = "1" := by decide +kernel
  have plain : places.isOf .plain := by decide
  have configured : (overlapping (.number .one)).isOf .plain := by decide +kernel
  have built := result_element_places (.number .one)
  obtain ⟨children, made, shape⟩ := map_eq_ok_iff.mp ((result_element _ _).symm.trans built)
  have read := result_ofXml_of_plain plain configured made
  rw [shape] at read
  refine ⟨_, _, plain, configured, built, by rw [result_toXml, made, ← shape]; rfl,
    one ▸ rfl, read.trans ?_⟩
  have value : (AttrValue.number .one).reread = .text "1" := by decide +kernel
  rw [reread_placesElement, value]
  rfl

end Style

end CartoStyle
