import CartoStyle.Proofs.Stylesheet.Style
import CartoStyle.Proofs.Stylesheet.Texts

/-!
# Stylesheets as documents

The document of a style can be read if it holds nothing but characters of documents, and those are a
matter of the strings of the style (`Style.isXml`) and of the options (`Options.isXml`). What is
read is then the tree that was written, as a document carries it (`Style.result_ofXml_overlay`). A
style that has been read from a document can be written and read again and stays the same
(`Style.ofXml_toXml_of_ofXml`).
-/

namespace CartoStyle

open Stylesheet
open Text (Charset)
open Xml (AttrValue Attributes Element hasXmlValues hasPlainNames hasValuesOf isXmlText
  isPlainName)

/-! ## Filters -/

/-- Documents may hold the string of a value. -/
def FilterValue.isXml : FilterValue → Bool
  | .text content => isXmlText content
  | _ => true

/-- The string of a value consists of characters from a choice. -/
def FilterValue.isOf (charset : Charset) : FilterValue → Bool
  | .text content => charset.holds content
  | _ => true

namespace Expression

/-- Documents may hold the strings of a comparison. -/
def isXmlComparison (_ : ComparisonOperator) (property : String) (value : FilterValue) : Bool :=
  isXmlText property && value.isXml

/-- The strings of a comparison consist of characters from a choice. -/
def isComparisonOf (charset : Charset) (_ : ComparisonOperator) (property : String)
    (value : FilterValue) : Bool :=
  charset.holds property && value.isOf charset

variable {charset : Charset}

theorem all_has_quoted (content : List Char) :
    (quoted content).all charset.has = content.all charset.has := by
  have quote : charset.has '\'' := charset.has_of_isVisible (by decide)
  have backslash : charset.has '\\' := charset.has_of_isVisible (by decide)
  have each (c : Char) : (quotedChar c).all charset.has = charset.has c := by
    rcases quotedChar_cases c with ⟨-, same⟩ | same <;> simp [same, backslash]
  simp [quoted_eq, List.all_flatMap, each, quote]

theorem all_has_valueText (value : FilterValue) :
    (valueText value).all charset.has = value.isOf charset := by
  cases value with
  | null => exact charset.all_has_of_ordinary (by decide)
  | number value =>
    exact charset.all_has_of_ordinary fun c member => .inl (Binary64.isVisible_of_mem_chars member)
  | text content => exact all_has_quoted content.toList

theorem all_has_symbol (operator : ComparisonOperator) :
    operator.symbol.toList.all charset.has :=
  charset.all_has_of_ordinary (by cases operator <;> decide)

theorem all_has_comparisonText (operator : ComparisonOperator) (property : String)
    (value : FilterValue) : (comparisonText operator property value).all charset.has =
      isComparisonOf charset operator property value := by
  have opening : charset.has '[' := charset.has_of_isVisible (by decide)
  have closing : "] ".toList.all charset.has := charset.all_has_of_ordinary (by decide)
  simp only [comparisonText, List.cons_append, List.append_assoc, List.all_cons, List.all_append,
    opening, closing, all_has_symbol, charset.has_blank, all_has_valueText, Bool.true_and]
  rfl

theorem all_has_grouped (part : List Char) :
    (grouped part).all charset.has = part.all charset.has := by
  have opening : charset.has '(' := charset.has_of_isVisible (by decide)
  have closing : charset.has ')' := charset.has_of_isVisible (by decide)
  simp [grouped, opening, closing]

theorem all_has_negatedText (part : List Char) :
    (negatedText part).all charset.has = part.all charset.has := by
  have word : "not ".toList.all charset.has := charset.all_has_of_ordinary (by decide)
  rw [negatedText, List.all_append, word, all_has_grouped, Bool.true_and]

theorem all_has_operandChars {operator : CombinationOperator} {operands : List Filter}
    {text : List Char} (rendered : operandChars operator operands = .ok text)
    (each : ∀ operand ∈ operands, ∀ part, chars operand = .ok part →
      part.all charset.has = operand.every (isComparisonOf charset)) :
    text.all charset.has = Filter.everyOperand (isComparisonOf charset) operands := by
  induction operands generalizing text with
  | nil =>
    cases rendered
    rfl
  | cons operand others ih =>
    obtain ⟨part, rest, first, last, rfl⟩ := operandChars_cons rendered
    have more := ih last fun other member => each other (List.mem_cons_of_mem _ member)
    have symbol : operator.symbol.toList.all charset.has :=
      charset.all_has_of_ordinary (by cases operator <;> decide)
    rw [List.all_append, all_has_grouped, each operand (List.mem_cons_self ..) part first,
      Filter.everyOperand, ← more]
    split
    · rename_i empty
      rw [empty]
    · simp only [List.cons_append, List.all_cons, List.all_append, symbol, charset.has_blank,
        Bool.true_and]

/-- The expression of a filter consists of characters from a choice if its names and strings do. -/
theorem all_has_chars {filter : Filter} {text : List Char} (rendered : chars filter = .ok text) :
    text.all charset.has = filter.every (isComparisonOf charset) := by
  induction filter using Filter.inductionOn generalizing text with
  | comparison operator property value =>
    cases rendered
    by_cases unequal : operator = .notEqual
    · rw [if_pos unequal, all_has_negatedText]
      exact all_has_comparisonText .equal property value
    · rw [if_neg unequal]
      exact all_has_comparisonText operator property value
  | combination operator operands ih =>
    rw [chars] at rendered
    split at rendered
    · cases rendered
    · exact all_has_operandChars rendered fun operand member part inner =>
        ih operand member inner
  | negation operand ih =>
    rw [chars] at rendered
    split at rendered
    · rename_i part inner
      cases rendered
      rw [all_has_negatedText]
      exact ih inner
    · cases rendered

theorem holds_render {filter : Filter} {text : String} (rendered : render filter = .ok text) :
    charset.holds text = filter.every (isComparisonOf charset) :=
  all_has_chars (render_eq_ok_iff.mp rendered)

/-- Documents may hold the expression of a filter if they may hold its names and strings. -/
theorem isXmlText_render {filter : Filter} {text : String} (rendered : render filter = .ok text) :
    isXmlText text = filter.every isXmlComparison :=
  @holds_render .xml filter text rendered

end Expression

/-! ## Rules -/

variable {glyphs : Glyphs} {options : Options} {style : Style}

/-- Documents may hold the strings of a symbolizer. -/
def Symbolizer.isXml (symbolizer : Symbolizer) : Bool :=
  symbolizer.valueTexts.all isXmlText && symbolizer.contentTexts.all isXmlText

namespace ScaleRange

theorem all_every_elements {p : String → Attributes → Option String → Bool}
    (range : Option ScaleRange)
    (each : ∀ tag ∈ conditionTags, ∀ bound : Binary64, p tag .empty (some bound.text)) :
    (range.elim [] elements).all (Element.every p) := by
  have bare (tag : String) (member : tag ∈ conditionTags) (bound : Binary64) :
      (boundElement tag bound).every p := by
    rw [Symbolizer.every_of_children_eq_nil rfl]
    exact each tag member bound
  have min := bare minScaleTag (by decide)
  have max := bare maxScaleTag (by decide)
  rcases range with _ | ⟨_ | lower, _ | upper⟩ <;> simp [elements, min, max]

end ScaleRange

namespace Rule

/-- Documents may hold the strings of a rule. -/
def isXml (rule : Rule) : Bool :=
  rule.name.all isXmlText && rule.filter.all (Filter.every Expression.isXmlComparison) &&
    rule.symbolizers.all Symbolizer.isXml

theorem every_elementWith (p : String → Attributes → Option String → Bool) (rule : Rule)
    (text : Option String) (drawings : List Element) :
    (rule.elementWith text drawings).every p =
      (p ruleTag (rule.elementWith text drawings).attributes none &&
        ((rule.scaleDenominator.elim [] ScaleRange.elements).all (Element.every p) &&
          text.all (fun text => p filterTag .empty (some text)) &&
            drawings.all (Element.every p))) := by
  have filter :
      (text.map fun text => ({ name := filterTag, text := some text } : Element)).toList.all
      (Element.every p) = text.all fun text => p filterTag .empty (some text) := by
    cases text with
    | none => rfl
    | some text => simp [Symbolizer.every_of_children_eq_nil]
  rw [elementWith, Element.every, Element.everyOf_eq_all, List.all_append, List.all_append, filter]

/-- Documents may hold the elements that draw if they may hold the strings of the symbolizers. -/
theorem all_hasXmlChars_drawings (possible : glyphs.isXml) {index : Nat}
    {symbolizers : List Symbolizer}
    {elements : List Element} (drawn : drawings glyphs index symbolizers = .ok elements) :
    elements.all (Element.every Element.hasXmlChars) = symbolizers.all Symbolizer.isXml := by
  induction symbolizers generalizing index elements with
  | nil =>
    cases drawn
    rfl
  | cons symbolizer others ih =>
    obtain ⟨first, rest, here, there, rfl⟩ := Symbolizer.drawings_cons_eq_ok drawn
    have one : first.all (Element.every Element.hasXmlChars) = symbolizer.isXml := by
      rw [Bool.eq_iff_iff, List.all_eq_true, Symbolizer.hasXmlChars_elements possible here,
        Symbolizer.isXml, Bool.and_eq_true]
    rw [List.all_append, one, ih there, List.all_cons]

theorem all_hasNames_drawings {index : Nat} {symbolizers : List Symbolizer}
    {elements : List Element}
    (drawn : drawings glyphs index symbolizers = .ok elements) :
    elements.all (Element.every Element.hasNames) := by
  apply List.all_eq_true.mpr
  intro element member
  obtain ⟨symbolizer, -, own, shown, inside⟩ := Symbolizer.exists_of_mem_drawings drawn member
  exact (Symbolizer.draws_of_mem_elements shown inside).hasNames

/-- Documents may hold the element of a rule if they may hold the strings of the rule. -/
theorem every_hasXmlChars_element (possible : glyphs.isXml) {rule : Rule} {element : Element}
    (built : rule.element glyphs = .ok element) :
    element.every Element.hasXmlChars = rule.isXml := by
  obtain ⟨text, elements, expressed, drawn, rfl⟩ := element_cases built
  have range := ScaleRange.all_every_elements (p := Element.hasXmlChars) rule.scaleDenominator
    fun _ _ bound => @Charset.holds_text .xml bound
  have name : Element.hasXmlChars ruleTag (rule.elementWith text elements).attributes none =
      rule.name.all isXmlText := by
    rw [elementWith]
    cases rule.name with
    | none => rfl
    | some name =>
      simp [Element.hasXmlChars, hasXmlValues, Dictionary.insert, Dictionary.insertEntry,
        Dictionary.empty, AttrValue.shown, isXmlText]
  have filter : text.all (fun text => Element.hasXmlChars filterTag .empty (some text)) =
      rule.filter.all (Filter.every Expression.isXmlComparison) := by
    cases has : rule.filter with
    | none =>
      rw [expression_of_none has] at expressed
      cases expressed
      rfl
    | some filter =>
      obtain ⟨rendered, here, rfl⟩ := exists_render_of_expression has expressed
      exact Expression.isXmlText_render here
  rw [every_elementWith, range, name, filter, all_hasXmlChars_drawings possible drawn, isXml,
    Bool.true_and, Bool.and_assoc]

theorem every_hasNames_element {rule : Rule} {element : Element}
    (built : rule.element glyphs = .ok element) : element.every Element.hasNames := by
  obtain ⟨text, elements, -, drawn, rfl⟩ := element_cases built
  have conditions : ∀ tag ∈ conditionTags, isPlainName tag := by decide
  have range := ScaleRange.all_every_elements (p := Element.hasNames) rule.scaleDenominator
    fun tag member _ => by rw [Element.hasNames, conditions tag member]; rfl
  have name : Element.hasNames ruleTag (rule.elementWith text elements).attributes none := by
    rw [elementWith]
    cases rule.name with
    | none => exact show Element.hasNames ruleTag .empty none by decide
    | some name => exact show Element.hasNames ruleTag (Dictionary.empty.insert nameAttribute
        (.flag true)) none by decide
  have filter : text.all fun text => Element.hasNames filterTag .empty (some text) := by
    cases text with
    | none => rfl
    | some text => exact show Element.hasNames filterTag .empty none by decide
  rw [every_elementWith, range, name, filter, all_hasNames_drawings drawn]
  rfl

end Rule

/-! ## Options -/

namespace Stylesheet.Options

/-- Attributes that a document may hold. -/
def areXml (attributes : Attributes) : Bool := hasPlainNames attributes && hasXmlValues attributes

/-- Documents may hold the configured attributes and the directory of the glyphs. -/
def isXml (options : Options) : Bool :=
  areXml options.mapOptions && areXml options.styleOptions &&
    options.symbolizerOptions.entries.all (fun entry => areXml entry.2) && options.glyphs.isXml

section Strings

variable (charset : Charset)

/-- Attributes with names that a document may hold and values of characters from a choice. -/
def areOf (attributes : Attributes) : Bool :=
  hasPlainNames attributes && hasValuesOf charset attributes

/-- The configured attributes have names that a document may hold, and their values and the
directory of the glyphs consist of characters from a choice. -/
def isOf (options : Options) : Bool :=
  areOf charset options.mapOptions && areOf charset options.styleOptions &&
    options.symbolizerOptions.entries.all (fun entry => areOf charset entry.2) &&
      options.glyphs.directory.all charset.holds

end Strings

/-- No attributes are configured for any element. -/
def areBare (options : Options) : Bool :=
  options.mapOptions.entries.isEmpty && options.styleOptions.entries.isEmpty &&
    options.symbolizerOptions.entries.all fun entry => entry.2.entries.isEmpty

/-- What holds of every configured set of attributes, and of none at all, holds of that for a name.
-/
theorem configured_of_all {p : Attributes → Prop} (empty : p .empty) (map : p options.mapOptions)
    (style : p options.styleOptions)
    (symbolizer : ∀ entry ∈ options.symbolizerOptions.entries, p entry.2) (name : String) :
    p (options.configured name) := by
  rw [configured]
  split
  · exact map
  · split
    · exact style
    · split
      · rename_i tag _
        cases found : options.symbolizerOptions.get? tag with
        | none => exact empty
        | some attributes => exact symbolizer _ (Dictionary.mem_entries_of_get? found)
      · exact empty

theorem areOf_configured {charset : Charset} (possible : options.isOf charset) (name : String) :
    areOf charset (options.configured name) := by
  simp only [isOf, Bool.and_eq_true, List.all_eq_true] at possible
  obtain ⟨⟨⟨map, style⟩, symbolizer⟩, -⟩ := possible
  exact @configured_of_all options (areOf charset ·) rfl map style symbolizer name

theorem areXml_configured (possible : options.isXml) (name : String) :
    areXml (options.configured name) :=
  @areOf_configured options .xml possible name

theorem configured_eq_empty (bare : options.areBare) (name : String) :
    options.configured name = .empty := by
  have same {attributes : Attributes} (empty : attributes.entries.isEmpty) : attributes = .empty :=
    Dictionary.ext (List.isEmpty_iff.mp empty)
  simp only [areBare, Bool.and_eq_true, List.all_eq_true] at bare
  obtain ⟨⟨map, style⟩, symbolizer⟩ := bare
  exact @configured_of_all options (· = .empty) rfl (same map) (same style)
    (fun entry member => same (symbolizer entry member)) name

/-- Options without attributes leave a tree as it is. -/
theorem overlay_of_areBare (bare : options.areBare) (element : Element) :
    options.overlay element = element := by
  refine @Element.rec (fun element => options.overlay element = element)
    (fun elements => elements.map options.overlay = elements) ?_ rfl ?_ element
  · intro name attributes text children same
    rw [overlay, configured_eq_empty bare, overlayAll_eq_map, same]
    rfl
  · intro first others here there
    rw [List.map_cons, here, there]

/-- A tree keeps a condition on its elements if the configured attributes may be added. -/
theorem every_overlay {p : String → Attributes → Option String → Bool}
    (added : ∀ name attributes text, p name attributes text →
      p name (attributes.addMissing (options.configured name).entries) text)
    {element : Element} (before : element.every p) : (options.overlay element).every p := by
  revert before
  refine @Element.rec (fun element => element.every p → (options.overlay element).every p)
    (fun elements => elements.all (Element.every p) →
      (elements.map options.overlay).all (Element.every p)) ?_ (fun _ => rfl) ?_ element
  · intro name attributes text children inner before
    rw [Element.every, Element.everyOf_eq_all, Bool.and_eq_true] at before
    rw [overlay, overlayAll_eq_map, Element.every, Element.everyOf_eq_all,
      added _ _ _ before.1, inner before.2]
    rfl
  · intro first others here there before
    rw [List.all_cons, Bool.and_eq_true] at before
    rw [List.map_cons, List.all_cons, here before.1, there before.2]
    rfl

theorem every_hasNames_overlay (possible : options.isXml) {element : Element}
    (named : element.every Element.hasNames) :
    (options.overlay element).every Element.hasNames := by
  apply every_overlay _ named
  intro name attributes text before
  obtain ⟨plain, old⟩ := Bool.and_eq_true_iff.mp before
  obtain ⟨new, -⟩ := Bool.and_eq_true_iff.mp (areXml_configured possible name)
  exact Bool.and_eq_true_iff.mpr ⟨plain, Dictionary.all_entries_addMissing old new⟩

theorem every_hasXmlChars_overlay (possible : options.isXml) {element : Element}
    (held : element.every Element.hasXmlChars) :
    (options.overlay element).every Element.hasXmlChars := by
  apply every_overlay _ held
  intro name attributes text before
  obtain ⟨old, content⟩ := Bool.and_eq_true_iff.mp before
  obtain ⟨-, new⟩ := Bool.and_eq_true_iff.mp (areXml_configured possible name)
  exact Bool.and_eq_true_iff.mpr ⟨Dictionary.all_entries_addMissing old new, content⟩

end Stylesheet.Options

/-! ## Styles -/

namespace Style

/-- Documents may hold the strings of a style. -/
def isXml (style : Style) : Bool := isXmlText style.name && style.rules.all Rule.isXml

theorem all_hasXmlChars_ruleElements (possible : glyphs.isXml) {index : Nat} {rules : List Rule}
    {elements : List Element} (built : ruleElements glyphs index rules = .ok elements) :
    elements.all (Element.every Element.hasXmlChars) = rules.all Rule.isXml := by
  induction rules generalizing index elements with
  | nil =>
    cases built
    rfl
  | cons rule others ih =>
    obtain ⟨first, rest, here, there, rfl⟩ := ruleElements_cons_eq_ok built
    rw [List.all_cons, Rule.every_hasXmlChars_element possible here, ih there, List.all_cons]

theorem all_hasNames_ruleElements {index : Nat} {rules : List Rule} {elements : List Element}
    (built : ruleElements glyphs index rules = .ok elements) :
    elements.all (Element.every Element.hasNames) := by
  apply List.all_eq_true.mpr
  intro element member
  obtain ⟨rule, -, here⟩ := exists_of_mem_ruleElements built member
  exact Rule.every_hasNames_element here

theorem every_root {p : String → Attributes → Option String → Bool} (map : p mapTag .empty none)
    (inner : Element) : (root options inner).every p = inner.every p := by
  rw [root]
  split
  · simp [Element.every, Element.everyOf, map]
  · rfl

/-- Documents may hold the tree of a style if they may hold the strings of the style. -/
theorem every_hasXmlChars_root (possible : glyphs.isXml) {children : List Element}
    (built : ruleElements glyphs 0 style.rules = .ok children) :
    (root options (style.elementWith children)).every Element.hasXmlChars = style.isXml := by
  have name : Element.hasXmlChars styleTag (style.elementWith children).attributes none =
      isXmlText style.name := by
    rw [elementWith]
    split
    · rename_i unnamed
      rw [unnamed]
      rfl
    · simp [Element.hasXmlChars, hasXmlValues, Dictionary.insert, Dictionary.insertEntry,
        Dictionary.empty, AttrValue.shown, isXmlText]
  rw [every_root (by decide), elementWith, Element.every, Element.everyOf_eq_all,
    all_hasXmlChars_ruleElements possible built, isXml, ← name]
  rfl

theorem every_hasNames_root {children : List Element}
    (built : ruleElements glyphs 0 style.rules = .ok children) :
    (root options (style.elementWith children)).every Element.hasNames := by
  have name : Element.hasNames styleTag (style.elementWith children).attributes none := by
    rw [elementWith]
    split
    · exact show Element.hasNames styleTag .empty none by decide
    · exact show Element.hasNames styleTag (Dictionary.empty.insert nameAttribute (.flag true)) none
        by decide
  rw [every_root (by decide), elementWith, Element.every, Element.everyOf_eq_all,
    all_hasNames_ruleElements built, Bool.and_true]
  exact name

/-- What is read from the document of a tree. -/
theorem result_ofXml_overlay {root : Element}
    (named : (options.overlay root).every Element.hasNames) :
    (ofXml (options.overlay root).document).result =
      if (options.overlay root).every Element.hasXmlChars then
        (ofElement (options.reread root)).result
      else .error .markup := by
  rw [ofXml, Element.ofText?_document named]
  cases (options.overlay root).every Element.hasXmlChars <;> rfl

section Reading

variable {children : List Element}
  (built : ruleElements options.glyphs 0 style.rules = .ok children)
  (named : (options.overlay (root options (style.elementWith children))).every Element.hasNames)
  (held : (options.overlay (root options (style.elementWith children))).every Element.hasXmlChars)
  (kept : style.keepsName options)
  (left : ∀ rule ∈ children, ∀ child ∈ rule.children, options.leaves child)

include built named held kept left

/-- A sound style is read from its document. -/
theorem result_ofXml_of_isSound (sound : style.isSound .document) :
    (ofXml (options.overlay (root options (style.elementWith children))).document).result =
      .ok (style.returned .document) := by
  have rules := result_rulesOf (arrival_reread options) built left (List.all_eq_true.mp sound) 0
  rw [result_ofXml_overlay named, if_pos held,
    result_ofElement_root (arrival_reread options) kept, rules]
  rfl

/-- A style that is read from its document is sound if its names and numbers are regular. -/
theorem isSound_of_ofXml (regular : style.isRegular) {read : Style}
    (done : (ofXml (options.overlay (root options (style.elementWith children))).document).result =
      .ok read) : style.isSound .document := by
  rw [result_ofXml_overlay named, if_pos held,
    result_ofElement_root (arrival_reread options) kept] at done
  obtain ⟨rules, rulesRead, -⟩ := map_eq_ok_iff.mp done
  exact List.all_eq_true.mpr (isSound_of_rulesOf (arrival_reread options) built left
    (List.all_eq_true.mp regular) rulesRead)

end Reading

/-- A sound style is written, and read from its document, if documents may hold its strings. -/
theorem exists_toXml_of_isSound (possible : options.isXml) (held : style.isXml)
    (kept : style.keepsName options)
    (left : ∀ children, ruleElements options.glyphs 0 style.rules = .ok children →
      ∀ rule ∈ children, ∀ child ∈ rule.children, options.leaves child)
    (sound : style.isSound .document)
    (built : ∃ children, ruleElements options.glyphs 0 style.rules = .ok children) :
    ∃ text, (style.toXml options).result = .ok text ∧
      (ofXml text).result = .ok (style.returned .document) := by
  obtain ⟨children, built⟩ := built
  have directory : options.glyphs.isXml := (Bool.and_eq_true_iff.mp possible).2
  refine ⟨_, by rw [result_toXml, built]; rfl, ?_⟩
  apply result_ofXml_of_isSound built _ _ kept (left children built) sound
  · exact Options.every_hasNames_overlay possible (every_hasNames_root built)
  · apply Options.every_hasXmlChars_overlay possible
    rw [every_hasXmlChars_root directory built]
    exact held

end Style

/-! ## Strings that have been read -/

variable {way : Carriage}

theorem Filter.every_isXmlComparison_returned {filter : Filter}
    (held : filter.every Expression.isXmlComparison) :
    (filter.returned way).every Expression.isXmlComparison := by
  rw [returned, every_desugared fun _ _ => rfl, every_mapTexts]
  apply every_of_every _ held
  intro operator property value possible
  obtain ⟨name, content⟩ := Bool.and_eq_true_iff.mp possible
  apply Bool.and_eq_true_iff.mpr ⟨Symbolizer.isXmlText_inner name, _⟩
  cases value with
  | text content' => exact Symbolizer.isXmlText_inner content
  | null => rfl
  | number value => rfl

theorem Rule.isXml_returned {rule : Rule} (held : rule.isXml) : (rule.returned way).isXml := by
  simp only [isXml, Bool.and_eq_true] at held ⊢
  obtain ⟨⟨name, filter⟩, symbolizers⟩ := held
  refine ⟨⟨Symbolizer.all_map_settled name, ?_⟩, List.all_eq_true.mpr ?_⟩
  · rw [returned]
    cases has : rule.filter with
    | none => rfl
    | some given =>
      rw [has] at filter
      exact Filter.every_isXmlComparison_returned filter
  · intro left member
    obtain ⟨symbolizer, present, inside⟩ := List.mem_flatMap.mp member
    obtain ⟨values, contents⟩ :=
      Bool.and_eq_true_iff.mp (List.all_eq_true.mp symbolizers symbolizer present)
    have remains := Symbolizer.remains_of_mem_returned inside
    exact Bool.and_eq_true_iff.mpr
      ⟨remains.all_valueTexts values, remains.all_contentTexts contents⟩

namespace Style

theorem isXml_returned (held : style.isXml) : (style.returned way).isXml := by
  obtain ⟨name, rules⟩ := Bool.and_eq_true_iff.mp held
  apply Bool.and_eq_true_iff.mpr ⟨Symbolizer.isXmlText_settled name, List.all_eq_true.mpr _⟩
  intro left member
  obtain ⟨rule, present, rfl⟩ := List.mem_map.mp member
  exact Rule.isXml_returned (List.all_eq_true.mp rules rule present)

/-! ## Writing and reading again -/

/-- Nothing is added to any element if no attributes are configured. -/
theorem leaves_of_areBare (bare : options.areBare) (element : Element) :
    options.leaves element := by
  simp [Options.leaves, Options.configured_eq_empty bare]

theorem keepsName_of_areBare (bare : options.areBare) (style : Style) :
    style.keepsName options := by
  have configured : options.styleOptions = .empty := Options.configured_eq_empty bare styleTag
  simp [keepsName, configured]

/-- A style that has been read from its document can be written, and is read as it is from the
document that is written for it, if no attributes are configured and documents may hold the
directory of the glyphs. -/
theorem ofXml_toXml_of_ofXml {read : Style} {text : String} (bare : options.areBare)
    (directory : options.glyphs.isXml) (regular : style.isRegular)
    (written : (style.toXml options).result = .ok text) (done : (ofXml text).result = .ok read) :
    ∃ again, (read.toXml options).result = .ok again ∧ (ofXml again).result = .ok read := by
  have kept := keepsName_of_areBare bare
  have plain := Options.overlay_of_areBare bare
  rw [result_toXml] at written
  obtain ⟨children, built, rfl⟩ := map_eq_ok_iff.mp written
  have named := plain (root options (style.elementWith children)) ▸ every_hasNames_root built
  have held : (options.overlay (root options (style.elementWith children))).every
      Element.hasXmlChars := by
    by_contra lost
    rw [result_ofXml_overlay named, if_neg lost] at done
    cases done
  have left (rules : List Element) :
      ∀ rule ∈ rules, ∀ child ∈ rule.children, options.leaves child :=
    fun _ _ child _ => leaves_of_areBare bare child
  have sound := isSound_of_ofXml built named held (kept style) (left children) regular done
  rw [result_ofXml_of_isSound built named held (kept style) (left children) sound] at done
  cases done
  -- What has been read has settled strings only, so its document can be read once more.
  obtain ⟨children', built'⟩ := @exists_ruleElements_returned .document _ _ _ built
  have named' := plain (root options ((style.returned .document).elementWith children')) ▸
    every_hasNames_root built'
  have held' :
      (options.overlay (root options ((style.returned .document).elementWith children'))).every
      Element.hasXmlChars := by
    rw [plain, every_hasXmlChars_root directory] at held ⊢
    · exact isXml_returned held
    · exact built'
    · exact built
  refine ⟨_, by rw [result_toXml, built']; rfl, ?_⟩
  rw [result_ofXml_of_isSound built' named' held' (kept _) (left children')
    (isSound_returned sound),
    returned_returned]

/-- A hidden area with an outline, where a property is not a string with a carriage return in it. -/
def hiddenArea : Style where
  name := "hidden"
  rules := [{
    filter := some (.comparison .notEqual "a" (.text "b\r"))
    symbolizers := [.fill { outlineColor := some "red", visibility := some false }] }]

theorem ofXml_toXml_hiddenArea : ∃ text read, ({} : Options).areBare ∧ ({} : Options).glyphs.isXml ∧
    hiddenArea.isRegular ∧ (hiddenArea.toXml {}).result = .ok text ∧
      (ofXml text).result = .ok read ∧
    ∃ again, (read.toXml {}).result = .ok again ∧ (ofXml again).result = .ok read := by
  obtain ⟨text, written, done⟩ := @exists_toXml_of_isSound {} hiddenArea (by decide) (by decide)
    (by decide) (fun _ _ _ _ child _ => leaves_of_areBare rfl child) (by decide) ⟨_, rfl⟩
  have regular : hiddenArea.isRegular := by decide
  exact ⟨text, _, rfl, rfl, regular, written, done,
    ofXml_toXml_of_ofXml rfl rfl regular written done⟩

/-- The image of a star, in a rule of its own. -/
def starImage : Style where
  rules := [{ symbolizers := [.icon { image := some "star.svg" }] }]

/-- A directory that no document may hold the name of. -/
def unprintableDirectory : Options where
  glyphBasePath := some "\u0001"

/-- The image of a star is read as a mark, and that is written with the directory of the glyphs. -/
theorem ofXml_toXml_starImage : ∃ text read again,
    unprintableDirectory.areBare ∧ starImage.isRegular ∧
    (starImage.toXml unprintableDirectory).result = .ok text ∧ (ofXml text).result = .ok read ∧
    (read.toXml unprintableDirectory).result = .ok again ∧
    (ofXml again).result = .error .markup := by
  have bare : unprintableDirectory.areBare := rfl
  have plain := Options.overlay_of_areBare bare
  obtain ⟨children, built⟩ : ∃ children,
      ruleElements unprintableDirectory.glyphs 0 starImage.rules = .ok children := ⟨_, rfl⟩
  obtain ⟨children', built'⟩ := @exists_ruleElements_returned .document _ _ _ built
  have named := plain (root unprintableDirectory (starImage.elementWith children)) ▸
    every_hasNames_root built
  have named' := plain (root unprintableDirectory
    ((starImage.returned .document).elementWith children')) ▸ every_hasNames_root built'
  have done := result_ofXml_of_isSound built named (by cases built; decide)
    (keepsName_of_areBare bare _) (fun _ _ child _ => leaves_of_areBare bare child) (by decide)
  have lost := (result_ofXml_overlay named').trans (if_neg (by cases built'; decide))
  exact ⟨_, _, _, bare, by decide, by rw [result_toXml, built]; rfl, done,
    by rw [result_toXml, built']; rfl, lost⟩

end Style

end CartoStyle
