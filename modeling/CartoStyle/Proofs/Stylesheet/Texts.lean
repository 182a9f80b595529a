import CartoStyle.Proofs.Stylesheet.Fixed

/-!
# The texts of a stylesheet

The elements of a symbolizer consist of some characters, such as those of documents, exactly if the
strings of it that are written do: numbers, truth values and keywords are no obstacle, and neither
is any name (`Symbolizer.hasCharsOf_elements`, `Symbolizer.Draws.hasNames`).
-/

namespace CartoStyle

open Stylesheet
open Text (Charset isVisible)
open Xml (AttrValue Attributes Element isPlainName)

namespace Xml

/-- A text that documents may hold. -/
def isXmlText (text : String) : Bool := text.toList.all isXmlChar

theorem settledValue_of_plain {text : String} (plain : Charset.plain.holds text) :
    settledValue text.toList = text.toList :=
  settledValue_of_forall fun _ member =>
    (Charset.plain_has_iff.mp (Charset.has_of_holds plain member)).2

/-- A value of characters from a choice. -/
def AttrValue.isOf (charset : Charset) (value : AttrValue) : Bool := charset.holds value.shown

/-- Values of characters from a choice. -/
def hasValuesOf (charset : Charset) (attributes : Attributes) : Bool :=
  attributes.entries.all fun entry => entry.2.isOf charset

/-- An element with values and a text of characters from a choice. -/
def Element.hasCharsOf (charset : Charset) (_ : String) (attributes : Attributes)
    (text : Option String) : Bool :=
  hasValuesOf charset attributes && charset.holds (text.getD "")

end Xml

open Xml (hasValuesOf isXmlText)

variable {charset : Charset}

namespace Text.Charset

theorem holds_text (x : Binary64) : charset.holds x.text := by
  apply charset.holds_of_isVisible
  rw [Binary64.text, String.toList_ofList]
  exact fun _ => Binary64.isVisible_of_mem_chars

theorem holds_intercalate (names : List String) :
    charset.holds (", ".intercalate names) = names.all charset.holds := by
  have separator : ", ".toList.all charset.has := charset.all_has_of_ordinary (by decide)
  rw [holds, String.toList_intercalate]
  induction names with
  | nil => rfl
  | cons name names ih =>
    cases names with
    | nil => simp [holds]
    | cons second others =>
      rw [List.map_cons, List.map_cons, List.intercalate_cons_cons, List.all_append,
        List.all_append,
        separator, ← List.map_cons, ih]
      simp [holds]

end Text.Charset

namespace Xml.AttrValue

@[simp] theorem isOf_text (text : String) :
    (AttrValue.text text).isOf charset = charset.holds text := rfl

@[simp] theorem isOf_number (x : Binary64) : (AttrValue.number x).isOf charset = true :=
  Charset.holds_text x

@[simp] theorem isOf_flag (b : Bool) : (AttrValue.flag b).isOf charset = true :=
  charset.holds_of_isVisible (by cases b <;> decide)

end Xml.AttrValue

/-! ## Tables -/

namespace Stylesheet.AttrField

/-- What is written for a field consists of characters from a choice. -/
def isOf {σ : Type} (charset : Charset) (record : σ) (field : AttrField σ) : Bool :=
  (field.write record).all (AttrValue.isOf charset)

section Forms

variable {σ α : Type} (name : String) (record : σ)

@[simp] theorem isOf_text (get : σ → Option String) (set : String → σ → σ) :
    (of name .text get set).isOf charset record = (get record).all charset.holds := by
  cases part : get record <;> simp [isOf, of, part, AttrForm.text]

@[simp] theorem isOf_names (get : σ → Option (List String)) (set : List String → σ → σ) :
    (of name .names get set).isOf charset record = (get record).all (·.all charset.holds) := by
  cases part : get record <;> simp [isOf, of, part, AttrForm.names, Charset.holds_intercalate]

@[simp] theorem isOf_number (get : σ → Option Binary64) (set : Binary64 → σ → σ) :
    (of name .number get set).isOf charset record = true := by
  cases part : get record <;> simp [isOf, of, part, AttrForm.number]

@[simp] theorem isOf_flag (get : σ → Option Bool) (set : Bool → σ → σ) :
    (of name .flag get set).isOf charset record = true := by
  cases part : get record <;> simp [isOf, of, part, AttrForm.flag]

@[simp] theorem isOf_switch (get : σ → Option Bool) (set : Bool → σ → σ) :
    (of name .switch get set).isOf charset record = true := by
  cases part : get record <;> simp [isOf, of, part, AttrForm.switch]

@[simp] theorem isOf_numbers (get : σ → Option (List Binary64)) (set : List Binary64 → σ → σ) :
    (of name .numbers get set).isOf charset record = true := by
  cases part : get record with
  | none => simp [isOf, of, part]
  | some values =>
    have visible := charset.holds_of_isVisible fun _ => @isVisible_of_mem_joinNumbers values _
    simpa [isOf, of, part, AttrForm.numbers] using visible

@[simp] theorem isOf_rotation (get : σ → Option Binary64) (set : Binary64 → σ → σ) :
    (of name .rotation get set).isOf charset record = true := by
  cases part : get record with
  | none => simp [isOf, of, part]
  | some degrees =>
    have visible := charset.holds_of_isVisible fun _ => @isVisible_of_mem_rotationText degrees _
    simpa [isOf, of, part, AttrForm.rotation] using visible

theorem isOf_keyword [Vocabulary α]
    (seen : ∀ value : α, ∀ c ∈ (keyword value).toList, isVisible c) (get : σ → Option α)
    (set : α → σ → σ) : (of name (.keyword α) get set).isOf charset record = true := by
  cases part : get record with
  | none => simp [isOf, of, part]
  | some value =>
    simpa [isOf, of, part, AttrForm.keyword] using charset.holds_of_isVisible (seen value)

end Forms

end Stylesheet.AttrField

theorem Fill.all_isOf_table (area : Fill) :
    table.all (AttrField.isOf charset area) = area.color.all charset.holds := by
  simp [table]

theorem Fill.all_isOf_outlineTable (area : Fill) :
    outlineTable.all (AttrField.isOf charset area) = area.outlineColor.all charset.holds := by
  simp [outlineTable]

theorem Line.all_isOf_table (stroke : Line) :
    table.all (AttrField.isOf charset stroke) = stroke.color.all charset.holds := by
  simp [table, AttrField.isOf_keyword _ _ isVisible_lineCap,
    AttrField.isOf_keyword _ _ isVisible_lineJoin]

theorem Mark.all_isOf_table (symbol : Mark) :
    table.all (AttrField.isOf charset symbol) =
      (symbol.strokeColor.all charset.holds && symbol.color.all charset.holds) := by
  simp [table]

theorem Icon.all_isOf_table (image : Icon) :
    table.all (AttrField.isOf charset image) =
      (image.color.all charset.holds && image.image.all charset.holds) := by
  simp [table]

theorem Raster.all_isOf_table (cover : Raster) :
    table.all (AttrField.isOf charset cover) = true := by
  simp [table]

theorem Label.all_isOf_table (label : Label) : table.all (AttrField.isOf charset label) =
    (label.color.all charset.holds &&
      (label.font.all (·.all charset.holds) && label.haloColor.all charset.holds)) := by
  simp [table, companion, AttrField.isOf_keyword _ _ isVisible_justification,
    AttrField.isOf_keyword _ _ isVisible_letterCase]

/-! ## Elements -/

namespace Stylesheet

section Parts

variable {σ : Type} {table : List (AttrField σ)} {record : σ} {element : Element}
  {p : String × AttrValue → Bool}

theorem all_entries_withFields (new : ∀ field ∈ table, ∀ value, field.write record = some value →
    p (field.attributeName, value)) (old : element.attributes.entries.all p) :
    (withFields table record element).attributes.entries.all p := by
  apply List.all_eq_true.mpr
  intro entry member
  rcases AttrField.mem_entries_writeAll member with ⟨field, present, name, written⟩ | before
  · rw [← Prod.mk.eta (p := entry), ← name]
    exact new field present entry.2 written
  · exact List.all_eq_true.mp old entry before

theorem all_entries_withAttribute {name : String} {value : AttrValue} (new : p (name, value))
    (old : element.attributes.entries.all p) :
    (element.withAttribute name value).attributes.entries.all p := by
  apply List.all_eq_true.mpr
  intro entry member
  rcases Dictionary.mem_entries_insert member with rfl | before
  · exact new
  · exact List.all_eq_true.mp old entry before

theorem all_entries_withText {name : String} {text : Option String}
    (new : ∀ written ∈ text, p (name, .text written)) (old : element.attributes.entries.all p) :
    (withText name text element).attributes.entries.all p := by
  cases text with
  | none => exact old
  | some text => exact all_entries_withAttribute (new text rfl) old

theorem all_entries_withVisibility {visibility : Option Bool} {name : String}
    (new : p (name, .number .zero)) (old : element.attributes.entries.all p) :
    (withVisibility visibility name element).attributes.entries.all p := by
  rw [withVisibility]
  split
  · exact all_entries_withAttribute new old
  · exact old

/-- What an element shows of a record may stand in a document if its values may. -/
theorem all_isOf_of_written (written : Written element table record)
    (possible : hasValuesOf charset element.attributes) :
    table.all (AttrField.isOf charset record) := by
  apply List.all_eq_true.mpr
  intro field member
  have shown := written field member
  rw [AttrField.isOf]
  cases value : field.write record with
  | none => rfl
  | some value =>
    rw [value] at shown
    exact List.all_eq_true.mp possible _ (Dictionary.mem_entries_of_get? shown)

theorem holds_of_attribute? {name : String} {text : Option String}
    (shown : element.attribute? name = text.map .text)
    (possible : hasValuesOf charset element.attributes) :
    text.all charset.holds := by
  cases text with
  | none => rfl
  | some text => exact List.all_eq_true.mp possible _ (Dictionary.mem_entries_of_get? shown)

theorem isOf_of_all_isOf (all : table.all (AttrField.isOf charset record)) :
    ∀ field ∈ table, ∀ value, field.write record = some value → value.isOf charset := by
  intro field member value written
  have possible := List.all_eq_true.mp all field member
  rwa [AttrField.isOf, written] at possible

theorem all_entries_drawing (tag : DrawingTag) : (drawing tag).attributes.entries.all p := rfl

end Parts

/-- A name that attributes may have in a document. -/
def isPlainEntry (entry : String × AttrValue) : Bool := isPlainName entry.1 && entry.1 != "xmlns"

theorem isPlainEntry_of_mem {σ : Type} {table : List (AttrField σ)}
    (plain : ∀ name ∈ AttrField.names table, isPlainEntry (name, .flag true)) {record : σ} :
    ∀ field ∈ table, ∀ value, field.write record = some value →
      isPlainEntry (field.attributeName, value) :=
  fun field member _ _ => plain field.attributeName (List.mem_map_of_mem member)

end Stylesheet

section Elements

variable (path : Option String)

theorem Fill.hasValuesOf_polygonWith (area : Fill) :
    hasValuesOf charset (area.polygonWith path).attributes =
      (area.color.all charset.holds && path.all charset.holds) := by
  rw [Bool.eq_iff_iff, Bool.and_eq_true]
  constructor
  · intro possible
    have fields := all_isOf_of_written (area.written_polygonWith path) possible
    rw [all_isOf_table] at fields
    exact ⟨fields, holds_of_attribute? (area.attribute?_file_polygonWith path) possible⟩
  · rintro ⟨color, file⟩
    rw [← area.all_isOf_table] at color
    rw [polygonWith, withFile_eq]
    apply all_entries_withVisibility (AttrValue.isOf_number .zero)
    apply all_entries_withText fun written given => (Option.all_eq_true _ _).mp file written given
    exact all_entries_withFields (isOf_of_all_isOf color) (all_entries_drawing _)

theorem Fill.hasValuesOf_outline (area : Fill) :
    hasValuesOf charset area.outline.attributes = area.outlineColor.all charset.holds := by
  rw [Bool.eq_iff_iff]
  constructor
  · intro possible
    have fields := all_isOf_of_written area.written_outline possible
    rwa [Line.all_isOf_table] at fields
  · intro color
    rw [← area.all_isOf_outlineTable] at color
    exact all_entries_withFields (isOf_of_all_isOf color) (all_entries_drawing _)

theorem Line.hasValuesOf_elementWith (stroke : Line) :
    hasValuesOf charset (stroke.elementWith path).attributes =
      (stroke.color.all charset.holds && path.all charset.holds) := by
  rw [Bool.eq_iff_iff, Bool.and_eq_true]
  constructor
  · intro possible
    have fields := all_isOf_of_written (stroke.written_elementWith path) possible
    rw [all_isOf_table] at fields
    exact ⟨fields, holds_of_attribute? (stroke.attribute?_file_elementWith path) possible⟩
  · rintro ⟨color, file⟩
    rw [← stroke.all_isOf_table] at color
    rw [elementWith, withFile_eq]
    apply all_entries_withText fun written given => (Option.all_eq_true _ _).mp file written given
    apply all_entries_withVisibility (AttrValue.isOf_number .zero)
    exact all_entries_withFields (isOf_of_all_isOf color) (all_entries_drawing _)

theorem Mark.hasValuesOf_elementWith (symbol : Mark) :
    hasValuesOf charset (symbol.elementWith path).attributes =
      (symbol.strokeColor.all charset.holds && symbol.color.all charset.holds &&
        path.all charset.holds) := by
  rw [Bool.eq_iff_iff, Bool.and_eq_true]
  constructor
  · intro possible
    have fields := all_isOf_of_written (symbol.written_elementWith path) possible
    rw [all_isOf_table] at fields
    exact ⟨fields, holds_of_attribute? (symbol.attribute?_file_elementWith path) possible⟩
  · rintro ⟨colors, file⟩
    rw [← symbol.all_isOf_table] at colors
    rw [elementWith, withFile_eq]
    apply all_entries_withVisibility (AttrValue.isOf_number .zero)
    apply all_entries_withText fun written given => (Option.all_eq_true _ _).mp file written given
    exact all_entries_withFields (isOf_of_all_isOf colors) (all_entries_drawing _)

theorem Icon.hasValuesOf_element (image : Icon) : hasValuesOf charset image.element.attributes =
    (image.color.all charset.holds && image.image.all charset.holds) := by
  rw [Bool.eq_iff_iff]
  constructor
  · intro possible
    have fields := all_isOf_of_written image.written_table possible
    rwa [all_isOf_table] at fields
  · intro texts
    rw [← image.all_isOf_table] at texts
    apply all_entries_withVisibility (AttrValue.isOf_number .zero)
    exact all_entries_withFields (isOf_of_all_isOf texts) (all_entries_drawing _)

theorem Raster.hasValuesOf_element (cover : Raster) :
    hasValuesOf charset cover.element.attributes := by
  apply all_entries_withVisibility (AttrValue.isOf_number .zero)
  exact all_entries_withFields (isOf_of_all_isOf cover.all_isOf_table) (all_entries_drawing _)

theorem Label.hasValuesOf_element (label : Label) : hasValuesOf charset label.element.attributes =
    (label.color.all charset.holds &&
      (label.font.all (·.all charset.holds) && label.haloColor.all charset.holds)) := by
  rw [Bool.eq_iff_iff]
  constructor
  · intro possible
    have fields := all_isOf_of_written label.written_table possible
    rwa [all_isOf_table] at fields
  · intro texts
    rw [← label.all_isOf_table] at texts
    rw [element, withAnchor_eq]
    apply all_entries_withVisibility (AttrValue.isOf_number .zero)
    apply all_entries_withText fun _ given =>
      charset.holds_of_isVisible (isVisible_alignment (.inr given))
    apply all_entries_withText fun _ given =>
      charset.holds_of_isVisible (isVisible_alignment (.inl given))
    exact all_entries_withFields (isOf_of_all_isOf texts) rfl

end Elements

namespace Symbolizer

/-! ## Symbolizers -/

@[simp] theorem all_toList (part : Option String) (p : String → Bool) :
    part.toList.all p = part.all p := by
  cases part <;> simp

/-- The strings of a graphic that are written. -/
def graphicTexts : Option Graphic → List String
  | some (.icon image) => image.image.toList
  | _ => []

/-- The strings that are written among the attributes of a symbolizer, but for paths of glyphs. -/
def valueTexts : Symbolizer → List String
  | .fill area => area.color.toList ++ graphicTexts area.graphicFill ++ area.outlineColor.toList
  | .line stroke => stroke.color.toList ++ graphicTexts stroke.graphic?
  | .mark symbol => symbol.color.toList ++ symbol.strokeColor.toList
  | .icon image => image.image.toList ++ image.color.toList
  | .raster _ => []
  | .text label => label.color.toList ++ label.font.getD [] ++ label.haloColor.toList

/-- The strings of a symbolizer that are written between tags. -/
def contentTexts : Symbolizer → List String
  | .text label => label.property.toList
  | _ => []

end Symbolizer

namespace Stylesheet

/-- Documents may hold the directory of the glyphs. -/
def Glyphs.isXml (glyphs : Glyphs) : Bool := glyphs.directory.all isXmlText

/-- The path of a glyph consists of characters from a choice if the directory does. -/
theorem Glyphs.holds_path {glyphs : Glyphs} (possible : glyphs.directory.all charset.holds)
    {name file : String} (found : glyphFile? name = some file) :
    charset.holds (glyphs.path file) := by
  have last : charset.holds file := charset.holds_of_isVisible fun c member =>
    ((glyphFiles_sound _ (glyphFile?_eq_some_iff.mp found)).1 c member).1
  rw [path]
  split
  · exact last
  · rename_i directory given
    split
    · exact last
    · rw [given] at possible
      rw [Charset.holds, String.toList_ofList]
      apply List.all_eq_true.mpr
      intro c member
      rcases List.mem_append.mp member with inside | behind
      · apply Charset.has_of_holds possible
        have kept := (List.dropWhile_suffix _).subset (List.mem_reverse.mp inside)
        exact List.mem_reverse.mp kept
      · rcases List.mem_cons.mp behind with rfl | inside
        · exact charset.has_of_isVisible (by decide)
        · exact Charset.has_of_holds last inside

end Stylesheet

namespace Symbolizer

variable {glyphs : Glyphs}

theorem all_holds_path (possible : glyphs.directory.all charset.holds) {graphic : Option Graphic}
    {path : Option String} (found : Graphic.path? glyphs graphic = .ok path) :
    path.all charset.holds = (graphicTexts graphic).all charset.holds := by
  cases graphic with
  | none =>
    cases found
    rfl
  | some graphic =>
    cases graphic with
    | icon image =>
      cases found
      cases shape : image.image <;> simp [graphicTexts, shape]
    | mark symbol =>
      rw [Graphic.path?, Graphic.file?] at found
      cases named : symbol.wellKnownName with
      | none =>
        rw [named] at found
        cases found
        rfl
      | some name =>
        rw [named] at found
        obtain ⟨resolved, here, rfl⟩ := map_eq_ok_iff.mp found
        obtain ⟨file, known, rfl⟩ := Glyphs.resolve_eq_ok_iff.mp here
        exact Glyphs.holds_path possible known

theorem holds_propertyText (property : String) :
    charset.holds (Label.propertyText property) = charset.holds property := by
  have opening : charset.has '[' := charset.has_of_isVisible (by decide)
  have closing : charset.has ']' := charset.has_of_isVisible (by decide)
  rw [Charset.holds, Carriage.toList_propertyText]
  simp [Charset.holds, opening, closing]

/-- An element that draws has no children, and only that of a label has a text. -/
theorem Draws.leaf {symbolizer : Symbolizer} {element : Element}
    (draws : symbolizer.Draws glyphs element) : element.children = [] ∧
      element.text = match symbolizer with
        | .text label => label.property.map Label.propertyText
        | _ => none := by
  cases draws with
  | polygon area => simp [Fill.polygonWith, withFile_eq, drawing]
  | outline area => exact ⟨rfl, rfl⟩
  | line stroke => simp [Line.elementWith, withFile_eq, drawing]
  | mark symbol => simp [Mark.elementWith, withFile_eq, drawing]
  | icon image => simp [Icon.element, drawing]
  | raster cover => simp [Raster.element, drawing]
  | text label => simp [Label.element, Label.withAnchor_eq, drawing]

theorem every_of_children_eq_nil {p : String → Attributes → Option String → Bool}
    {element : Element}
    (bare : element.children = []) :
    element.every p = p element.name element.attributes element.text := by
  obtain ⟨name, attributes, text, children⟩ := element
  cases bare
  simp [Element.every, Element.everyOf]

/-- The values in the elements of a symbolizer consist of characters from a choice if its strings
do. -/
theorem hasValuesOf_elements (possible : glyphs.directory.all charset.holds)
    {symbolizer : Symbolizer} {elements : List Element}
    (built : symbolizer.elements glyphs = .ok elements) :
    (elements.all fun element => hasValuesOf charset element.attributes) =
      symbolizer.valueTexts.all charset.holds := by
  have cases_ := elements_cases built
  cases symbolizer with
  | fill area =>
    obtain ⟨path, found, rfl⟩ := cases_
    rw [List.all_cons, area.hasValuesOf_polygonWith, all_holds_path possible found, valueTexts]
    cases outlined : area.hasOutline with
    | true => simp [area.hasValuesOf_outline, Bool.and_assoc]
    | false =>
      have uncolored : area.outlineColor = none := by
        simp only [Fill.hasOutline, Bool.or_eq_false_iff, Option.isSome_eq_false_iff,
          Option.isNone_iff_eq_none] at outlined
        exact outlined.1.1.1
      simp [uncolored]
  | line stroke =>
    obtain ⟨path, found, rfl⟩ := cases_
    simp [stroke.hasValuesOf_elementWith, all_holds_path possible found, valueTexts]
  | mark symbol =>
    obtain ⟨path, found, rfl⟩ := cases_
    have file : path.all charset.holds :=
      @all_holds_path charset glyphs possible (some (.mark symbol)) path found
    simp [symbol.hasValuesOf_elementWith, file, valueTexts, Bool.and_comm]
  | icon image =>
    obtain ⟨rfl⟩ : elements = [image.element] := cases_
    simp [image.hasValuesOf_element, valueTexts, Bool.and_comm]
  | raster cover =>
    obtain ⟨rfl⟩ : elements = [cover.element] := cases_
    simp [cover.hasValuesOf_element, valueTexts]
  | text label =>
    obtain ⟨rfl⟩ : elements = [label.element] := cases_
    cases fonts : label.font <;> simp [label.hasValuesOf_element, valueTexts, fonts]

/-- The elements of a symbolizer consist of characters from a choice if its strings do. -/
theorem hasCharsOf_elements (possible : glyphs.directory.all charset.holds)
    {symbolizer : Symbolizer} {elements : List Element}
    (built : symbolizer.elements glyphs = .ok elements) :
    (∀ element ∈ elements, element.every (Element.hasCharsOf charset)) ↔
      symbolizer.valueTexts.all charset.holds ∧ symbolizer.contentTexts.all charset.holds := by
  have each : ∀ element ∈ elements, element.every (Element.hasCharsOf charset) ↔
      hasValuesOf charset element.attributes ∧ charset.holds (element.text.getD "") := by
    intro element member
    rw [every_of_children_eq_nil (draws_of_mem_elements built member).leaf.1, Element.hasCharsOf,
      Bool.and_eq_true]
  rw [forall₂_congr each, ← hasValuesOf_elements possible built, List.all_eq_true]
  cases symbolizer with
  | text label =>
    obtain rfl : [label.element] = elements := Except.ok.inj built
    have content : charset.holds (label.element.text.getD "") =
        label.property.toList.all charset.holds := by
      rw [label.text_element]
      cases label.property with
      | none => rfl
      | some property => simpa using holds_propertyText property
    simp only [List.forall_mem_singleton, content, contentTexts]
  | _ =>
    constructor
    · exact fun all => ⟨fun element member => (all element member).1, rfl⟩
    · intro all element member
      refine ⟨all.1 element member, ?_⟩
      rw [(draws_of_mem_elements built member).leaf.2]
      rfl

/-- Documents may hold the elements of a symbolizer if they may hold its strings. -/
theorem hasXmlChars_elements (possible : glyphs.isXml) {symbolizer : Symbolizer}
    {elements : List Element} (built : symbolizer.elements glyphs = .ok elements) :
    (∀ element ∈ elements, element.every Element.hasXmlChars) ↔
      symbolizer.valueTexts.all isXmlText ∧ symbolizer.contentTexts.all isXmlText :=
  @hasCharsOf_elements .xml glyphs possible symbolizer elements built

/-- The elements of a symbolizer and their attributes have names that documents may hold. -/
theorem Draws.hasNames {symbolizer : Symbolizer} {element : Element}
    (draws : symbolizer.Draws glyphs element) : element.every Element.hasNames := by
  have tags : ∀ tag ∈ (Vocabulary.all : List DrawingTag), isPlainName (keyword tag) := by decide
  obtain ⟨tag, name⟩ := draws.exists_tag
  rw [every_of_children_eq_nil draws.leaf.1, Element.hasNames, name,
    tags tag (Vocabulary.mem_all tag), Bool.true_and]
  have file (text : String) : isPlainEntry (fileAttribute, .text text) :=
    show isPlainEntry (fileAttribute, .flag true) by decide
  cases draws with
  | polygon area =>
    rw [Fill.polygonWith, withFile_eq]
    apply all_entries_withVisibility (by decide)
    apply all_entries_withText fun text _ => file text
    exact all_entries_withFields (isPlainEntry_of_mem (by decide)) (all_entries_drawing _)
  | outline area =>
    exact all_entries_withFields (isPlainEntry_of_mem (by decide)) (all_entries_drawing _)
  | line stroke =>
    rw [Line.elementWith, withFile_eq]
    apply all_entries_withText fun text _ => file text
    apply all_entries_withVisibility (by decide)
    exact all_entries_withFields (isPlainEntry_of_mem (by decide)) (all_entries_drawing _)
  | mark symbol =>
    rw [Mark.elementWith, withFile_eq]
    apply all_entries_withVisibility (by decide)
    apply all_entries_withText fun text _ => file text
    exact all_entries_withFields (isPlainEntry_of_mem (by decide)) (all_entries_drawing _)
  | icon image =>
    apply all_entries_withVisibility (by decide)
    exact all_entries_withFields (isPlainEntry_of_mem (by decide)) (all_entries_drawing _)
  | raster cover =>
    apply all_entries_withVisibility (by decide)
    exact all_entries_withFields (isPlainEntry_of_mem (by decide)) (all_entries_drawing _)
  | text label =>
    have alignment (text : String) : isPlainEntry (Anchor.horizontalAttribute, .text text) ∧
        isPlainEntry (Anchor.verticalAttribute, .text text) :=
      show isPlainEntry (Anchor.horizontalAttribute, .flag true) ∧
        isPlainEntry (Anchor.verticalAttribute, .flag true) by decide
    rw [Label.element, Label.withAnchor_eq]
    apply all_entries_withVisibility (by decide)
    apply all_entries_withText fun text _ => (alignment text).1
    apply all_entries_withText fun text _ => (alignment text).2
    exact all_entries_withFields (isPlainEntry_of_mem (by decide)) rfl

/-! ## What has been read back -/

section Returned

variable {way : Carriage}

theorem isXmlText_settled {text : String} (possible : isXmlText text) :
    isXmlText (way.settled text) := by
  apply List.all_eq_true.mpr
  intro c member
  rcases way.mem_settled member with rfl | inside
  · decide
  · exact List.all_eq_true.mp possible c inside

theorem isXmlText_inner {text : String} (possible : isXmlText text) :
    isXmlText (way.inner text) := by
  apply List.all_eq_true.mpr
  intro c member
  rcases way.mem_inner member with rfl | inside
  · decide
  · exact List.all_eq_true.mp possible c inside

theorem all_map_settled {part : Option String} (possible : part.all isXmlText) :
    (part.map way.settled).all isXmlText := by
  cases part with
  | none => rfl
  | some text => exact isXmlText_settled possible

theorem all_names {names : List String} (possible : names.all isXmlText) :
    (way.names names).all isXmlText := by
  have joined := (@Charset.holds_intercalate .xml names).trans possible
  have settled : isXmlText (way.settled (", ".intercalate names)) := isXmlText_settled joined
  apply List.all_eq_true.mpr
  intro name member
  apply List.all_eq_true.mpr
  intro c inside
  exact List.all_eq_true.mp settled c (mem_of_mem_namesOf member inside)

theorem all_graphicTexts_returned {graphic : Option Graphic}
    (possible : (graphicTexts graphic).all isXmlText) :
    (graphicTexts (graphic.bind (Graphic.returned way))).all isXmlText := by
  cases graphic with
  | none => rfl
  | some graphic =>
    cases graphic with
    | mark symbol =>
      cases named : symbol.wellKnownName <;> simp [Graphic.returned, named, graphicTexts]
    | icon image =>
      cases shape : image.image with
      | none => simp [Graphic.returned, shape, graphicTexts]
      | some path =>
        have settled : isXmlText (way.settled path) := by
          apply isXmlText_settled
          simpa [graphicTexts, shape] using possible
        rw [Option.bind_some, Graphic.returned, shape, Option.map_some, Graphic.ofFile]
        split <;> simp [graphicTexts, settled]

/-- Documents may hold the strings of what is read back if they may hold those that were written. -/
theorem Remains.all_valueTexts {symbolizer left : Symbolizer}
    (remains : Remains way symbolizer left) (possible : symbolizer.valueTexts.all isXmlText) :
    left.valueTexts.all isXmlText := by
  cases remains with
  | fill area =>
    simp only [valueTexts, List.all_append, all_toList, Bool.and_eq_true] at possible
    obtain ⟨⟨color, graphic⟩, -⟩ := possible
    have color : (area.returned way).color.all isXmlText := all_map_settled color
    have graphic : (graphicTexts (area.returned way).graphicFill).all isXmlText :=
      all_graphicTexts_returned graphic
    have bare : (area.returned way).outlineColor = none := rfl
    simp [valueTexts, color, graphic, bare]
  | border area =>
    simp only [valueTexts, List.all_append, all_toList, Bool.and_eq_true] at possible
    have color : (area.border.returned way).color.all isXmlText := all_map_settled possible.2
    have bare : (area.border.returned way).graphic? = none := rfl
    simp [valueTexts, color, bare, graphicTexts]
  | line stroke =>
    simp only [valueTexts, List.all_append, all_toList, Bool.and_eq_true] at possible
    obtain ⟨color, graphic⟩ := possible
    have color : (stroke.returned way).color.all isXmlText := all_map_settled color
    have graphic : (graphicTexts (stroke.returned way).graphic?).all isXmlText := by
      rw [Line.graphic?_returned]
      exact all_graphicTexts_returned graphic
    simp [valueTexts, color, graphic]
  | mark symbol =>
    simp only [valueTexts, List.all_append, all_toList, Bool.and_eq_true] at possible
    obtain ⟨color, strokeColor⟩ := possible
    have color : (symbol.returned way).color.all isXmlText := all_map_settled color
    have strokeColor : (symbol.returned way).strokeColor.all isXmlText :=
      all_map_settled strokeColor
    simp [valueTexts, color, strokeColor]
  | icon image =>
    simp only [valueTexts, List.all_append, all_toList, Bool.and_eq_true] at possible
    obtain ⟨path, color⟩ := possible
    have path : (image.image.map way.settled).all isXmlText := all_map_settled path
    have color : (image.color.map way.settled).all isXmlText := all_map_settled color
    rw [Icon.returned]
    split
    · simp only [valueTexts, List.all_append, all_toList, path, color, Bool.and_true]
    · simp only [valueTexts, List.all_append, all_toList, color, Icon.asMark]
      rfl
  | raster cover => rfl
  | text label =>
    simp only [valueTexts, List.all_append, all_toList, Bool.and_eq_true] at possible
    obtain ⟨⟨color, font⟩, haloColor⟩ := possible
    have color : (label.returned way).color.all isXmlText := all_map_settled color
    have haloColor : (label.returned way).haloColor.all isXmlText := all_map_settled haloColor
    have font : ((label.returned way).font.getD []).all isXmlText := by
      rw [Label.returned]
      cases listed : label.font with
      | none => rfl
      | some names =>
        rw [listed] at font
        exact all_names font
    simp only [valueTexts, List.all_append, all_toList, color, font, haloColor, Bool.and_true]

/-- The property of a label that is read back may stand in a document if the one written may. -/
theorem Remains.all_contentTexts {symbolizer left : Symbolizer}
    (remains : Remains way symbolizer left) (possible : symbolizer.contentTexts.all isXmlText) :
    left.contentTexts.all isXmlText := by
  cases remains with
  | text label =>
    rw [contentTexts, Label.returned]
    cases given : label.property with
    | none => rfl
    | some property =>
      have inner : isXmlText (way.inner property) := by
        apply isXmlText_inner
        simpa [contentTexts, given] using possible
      rw [Option.bind_some, Label.plainProperty?]
      split
      · rfl
      · simp [inner]
  | icon image =>
    rw [Icon.returned]
    split <;> rfl
  | fill | border | line | mark | raster => rfl

end Returned

end Symbolizer

end CartoStyle
