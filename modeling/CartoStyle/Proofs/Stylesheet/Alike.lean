import CartoStyle.Proofs.Stylesheet.Document
import CartoStyle.Proofs.Stylesheet.ReadFault

/-!
# Trees and documents read alike

A tree has numbers and truth values where its document has texts. A reader that is given the one or
the other takes in the same, with one exception: where a truth value is asked for, the texts of zero
and one stand for truth values, and the numbers themselves do not. So the two results are the same
unless the tree is refused for such a number (`Agrees`), and this goes from the values of attributes
up to styles: every sequence of readings agrees if its parts do (`Agrees.bind`).
-/

namespace CartoStyle

open Stylesheet
open Xml (AttrValue Attributes Element)

/-! ## Values -/

namespace Xml

/-- A value that stands in a document as it is. -/
def AttrValue.IsSettled (value : AttrValue) : Prop :=
  settledValue value.shown.toList = value.shown.toList

namespace AttrValue

variable {value : AttrValue}

theorem IsSettled.reread_eq (settled : value.IsSettled) : value.reread = .text value.shown := by
  rw [reread, settled, String.ofList_toList]

theorem IsSettled.shown_reread (settled : value.IsSettled) : value.reread.shown = value.shown := by
  rw [settled.reread_eq, shown]

theorem IsSettled.asNumber?_reread (settled : value.IsSettled) :
    value.reread.asNumber? = value.asNumber? := by
  cases value with
  | text content => rw [settled.reread_eq, shown]
  | number x => exact Carriage.document.asNumber?_value x
  | flag b => cases b <;> decide

/-- The texts of zero and one, which stand for truth values too. -/
def isDigit (text : String) : Bool := text == "0" || text == "1"

theorem trimmed_text (x : Binary64) : Text.trimmed x.text = x.text := by
  rw [Text.trimmed, Binary64.text, String.toList_ofList,
    Text.trim_of_isVisible fun _ => Binary64.isVisible_of_mem_chars]

/-- The text of a number stands for no truth value, unless it is that of zero or one. -/
theorem flagOfText?_text (x : Binary64) : flagOfText? x.text = none ∨ isDigit x.text := by
  have number : numberOfText? (Text.trim x.text.toList) = some x := by
    rw [Binary64.text, String.toList_ofList]
    exact Binary64.numberOfText?_trim_chars x
  have other {word : String} (unknown : numberOfText? (Text.trim word.toList) = none) :
      x.text ≠ word := by
    rintro rfl
    rw [number] at unknown
    cases unknown
  have yes : x.text ≠ "true" := other (by decide +kernel)
  have no : x.text ≠ "false" := other (by decide +kernel)
  by_cases one : x.text = "1"
  · exact .inr (by simp [isDigit, one])
  · by_cases zero : x.text = "0"
    · exact .inr (by simp [isDigit, zero])
    · exact .inl (by simp [flagOfText?, yes, no, one, zero])

/-- A truth value is read alike, but for the numbers zero and one. -/
theorem IsSettled.asFlag?_reread (settled : value.IsSettled) :
    value.reread.asFlag? = value.asFlag? ∨ value.asFlag? = none ∧ isDigit value.shown := by
  cases value with
  | text content => exact .inl (by rw [settled.reread_eq, shown])
  | flag b => exact .inl (by cases b <;> decide)
  | number x =>
    rw [settled.reread_eq, shown, asFlag?, asFlag?, trimmed_text]
    exact (flagOfText?_text x).imp id fun digit => ⟨rfl, digit⟩

/-- A text of zero or one is read as a truth value. -/
theorem exists_asFlag?_of_isDigit {text : String} (digit : isDigit text) :
    ∃ b, (AttrValue.text text).asFlag? = some b := by
  simp only [isDigit, Bool.or_eq_true, beq_iff_eq] at digit
  rcases digit with rfl | rfl
  · exact ⟨false, by decide⟩
  · exact ⟨true, by decide⟩

end AttrValue

end Xml

/-! ## Problems -/

namespace Stylesheet

/-- The attributes of an element that hold truth values. -/
def flagNames : DrawingTag → List String
  | .markers => ["allow-overlap", "avoid-edges"]
  | .text => ["allow-overlap", "avoid-edges", "wrap-before", "rotate-displacement"]
  | _ => []

/-- The problem of a truth value that is given as the number zero or one, wherever it was found. -/
def Problem.isNumberedFlag : Problem → Bool
  | .invalidAttribute element attributeName value =>
    (Vocabulary.ofKeyword? element : Option DrawingTag).any
      (fun tag => (flagNames tag).contains attributeName) && Xml.AttrValue.isDigit value
  | .inRule _ _ cause => cause.isNumberedFlag
  | .inSymbolizer _ _ cause => cause.isNumberedFlag
  | _ => false

theorem Problem.isNumberedFlag_invalidAttribute {tag : DrawingTag} {attributeName value : String} :
    (Problem.invalidAttribute (keyword tag) attributeName value).isNumberedFlag ↔
      attributeName ∈ flagNames tag ∧ Xml.AttrValue.isDigit value := by
  rw [isNumberedFlag, Vocabulary.ofKeyword?_keyword]
  simp

/-- The results for a tree and for its document are the same, unless the tree is refused for a truth
value that is given as a number. The document is never refused for that. -/
structure Agrees {α : Type} (tree document : Except Problem α) : Prop where
  same : document = tree ∨ ∃ problem, tree = .error problem ∧ problem.isNumberedFlag
  sound (problem : Problem) (refused : document = .error problem) :
    ¬problem.isNumberedFlag

namespace Agrees

variable {α β : Type} {tree document : Except Problem α}

theorem ok (value : α) : Agrees (.ok value) (.ok value) := ⟨.inl rfl, nofun⟩

theorem of_error {problem : Problem} (other : ¬problem.isNumberedFlag) :
    Agrees (.error problem : Except Problem α) (.error problem) :=
  ⟨.inl rfl, by rintro _ ⟨⟩; exact other⟩

/-- What does not depend on any types agrees with itself. -/
theorem rfl_of {result : Except Problem α}
    (other : ∀ problem, result = .error problem → ¬problem.isNumberedFlag) :
    Agrees result result := ⟨.inl rfl, other⟩

/-- A sequence of readings agrees if its parts do. -/
theorem bind {next next' : α → Except Problem β} (first : Agrees tree document)
    (rest : ∀ value, Agrees (next value) (next' value)) :
    Agrees (tree >>= next) (document >>= next') := by
  constructor
  · rcases first.same with rfl | ⟨problem, rfl, numbered⟩
    · cases document with
      | error problem => exact .inl rfl
      | ok value => exact (rest value).same
    · exact .inr ⟨problem, rfl, numbered⟩
  · intro problem refused
    rcases bind_eq_error_iff.mp refused with early | ⟨value, -, late⟩
    · exact first.sound problem early
    · exact (rest value).sound problem late

/-- Places in problems make no difference. -/
theorem mapError (context : Problem → Problem)
    (place : ∀ problem, (context problem).isNumberedFlag = problem.isNumberedFlag)
    (agrees : Agrees tree document) :
    Agrees (tree.mapError context) (document.mapError context) := by
  constructor
  · rcases agrees.same with rfl | ⟨problem, rfl, numbered⟩
    · exact .inl rfl
    · exact .inr ⟨context problem, rfl, by rwa [place]⟩
  · intro problem refused
    obtain ⟨cause, early, rfl⟩ := mapError_eq_error_iff.mp refused
    rw [place]
    exact agrees.sound cause early

/-- What is made of what is read agrees if that does. -/
theorem wrap {tree document : Traced α} (agrees : Agrees tree.result document.result) (f : α → β) :
    Agrees (do return f (← tree) : Traced β).result
      (do return f (← document) : Traced β).result := by
  simp only [Traced.result_bind]
  exact agrees.bind fun value => .ok (f value)

/-- The results differ exactly if the tree is refused for a truth value that is given as a number.
-/
theorem ne_iff (agrees : Agrees tree document) :
    document ≠ tree ↔ ∃ problem, tree = .error problem ∧ problem.isNumberedFlag := by
  constructor
  · exact agrees.same.resolve_left
  · rintro ⟨problem, rfl, numbered⟩ same
    exact agrees.sound problem same numbered

end Agrees

end Stylesheet

/-! ## Elements -/

namespace Xml.Element

/-- An element whose values and whose text stand in a document as they are. -/
def hasSettledTexts (_ : String) (attributes : Attributes) (text : Option String) : Bool :=
  (attributes.entries.all fun entry =>
    settledValue entry.2.shown.toList == entry.2.shown.toList) && settledText (text.getD "") == text

variable {element : Element}

/-- What holds of every element of a tree holds of its root and of every element below. -/
theorem every_iff {p : String → Attributes → Option String → Bool} :
    element.every p ↔ p element.name element.attributes element.text ∧
      ∀ child ∈ element.children, child.every p := by
  cases element
  rw [every, everyOf_eq_all, Bool.and_eq_true, List.all_eq_true]

theorem every_child {p : String → Attributes → Option String → Bool} (all : element.every p)
    {child : Element} (member : child ∈ element.children) : child.every p :=
  (every_iff.mp all).2 child member

/-- A tree arrives from its own document. -/
theorem arrival_reread : Carriage.document.Arrival {} reread := by
  have same : Options.reread {} = reread :=
    funext fun element => congrArg reread (Options.overlay_of_areBare rfl element)
  exact same ▸ Stylesheet.arrival_reread {}

theorem name_reread (element : Element) : element.reread.name = element.name :=
  arrival_reread.name_eq element

theorem children_reread (element : Element) :
    element.reread.children = element.children.map reread :=
  arrival_reread.children_eq element

theorem attribute?_reread (element : Element) (name : String) :
    element.reread.attribute? name = (element.attribute? name).map AttrValue.reread := by
  cases element
  exact Dictionary.get?_mapValues ..

theorem firstChild?_reread (element : Element) (name : String) :
    element.reread.firstChild? name = (element.firstChild? name).map reread :=
  arrival_reread.firstChild?_eq element name

section Settled

variable (settled : element.every hasSettledTexts)

include settled

theorem text_reread : element.reread.text = element.text := by
  have own := (Bool.and_eq_true_iff.mp (every_iff.mp settled).1).2
  cases element
  exact beq_iff_eq.mp own

theorem isSettled_of_attribute? {name : String} {value : AttrValue}
    (found : element.attribute? name = some value) : value.IsSettled := by
  have own := (Bool.and_eq_true_iff.mp (every_iff.mp settled).1).1
  exact beq_iff_eq.mp (List.all_eq_true.mp own _ (Dictionary.mem_entries_of_get? found))

theorem attributeText?_reread (name : String) :
    element.reread.attributeText? name = element.attributeText? name := by
  rw [attributeText?, attributeText?, attribute?_reread]
  cases found : element.attribute? name with
  | none => rfl
  | some value => exact congrArg some (isSettled_of_attribute? settled found).shown_reread

end Settled

end Xml.Element

/-! ## Tables -/

namespace Stylesheet

/-- A form that takes values and texts for the same. -/
def AttrForm.IgnoresTypes {α : Type} (form : AttrForm α) : Prop :=
  ∀ value : AttrValue, value.IsSettled → form.read value.reread = form.read value

namespace AttrForm

theorem ignoresTypes_number : number.IgnoresTypes := by
  intro value settled
  simp only [number, settled.asNumber?_reread]

theorem ignoresTypes_switch : switch.IgnoresTypes := by
  intro value settled
  simp only [switch, settled.asNumber?_reread]

/-- What is read from the text of a value only is the same for both. -/
theorem ignoresTypes_of_shown {α : Type} {form : AttrForm α}
    (shown : ∀ value value', value.shown = value'.shown → form.read value = form.read value') :
    form.IgnoresTypes :=
  fun value settled => shown value.reread value settled.shown_reread

theorem ignoresTypes_text : text.IgnoresTypes :=
  ignoresTypes_of_shown fun _ _ same => by simp only [text, same]

theorem ignoresTypes_keyword (α : Type) [Vocabulary α] : (keyword α).IgnoresTypes :=
  ignoresTypes_of_shown fun _ _ same => by simp only [keyword, same]

theorem ignoresTypes_numbers : numbers.IgnoresTypes :=
  ignoresTypes_of_shown fun _ _ same => by simp only [numbers, same]

theorem ignoresTypes_rotation : rotation.IgnoresTypes :=
  ignoresTypes_of_shown fun _ _ same => by simp only [rotation, same]

theorem ignoresTypes_names : names.IgnoresTypes :=
  ignoresTypes_of_shown fun _ _ same => by simp only [names, same]

end AttrForm

namespace AttrField

variable {σ α : Type} {tag : DrawingTag}

/-- A field takes values and texts for the same, but for the numbers of truth values. -/
structure ReadsAlike (tag : DrawingTag) (field : AttrField σ) : Prop where
  same (value : AttrValue) (settled : value.IsSettled) :
    (∀ record, field.read value.reread record = field.read value record) ∨
      field.attributeName ∈ flagNames tag ∧ AttrValue.isDigit value.shown ∧
        ∀ record, field.read value record = none
  sound (flag : field.attributeName ∈ flagNames tag) {text : String}
    (digit : AttrValue.isDigit text) (record : σ) : field.read (.text text) record ≠ none

theorem readsAlike_of {name : String} {form : AttrForm α} {get : σ → Option α} {set : α → σ → σ}
    (ignores : form.IgnoresTypes) (other : name ∉ flagNames tag) :
    (of name form get set).ReadsAlike tag where
  same value settled := .inl fun record => by simp only [of, ignores value settled]
  sound flag := absurd flag other

theorem readsAlike_flag {name : String} (get : σ → Option Bool) (set : Bool → σ → σ)
    (flag : name ∈ flagNames tag) : (of name .flag get set).ReadsAlike tag where
  same value settled := by
    rcases settled.asFlag?_reread with same | ⟨absent, digit⟩
    · exact .inl fun record => by simp only [of, AttrForm.flag, same]
    · exact .inr ⟨flag, digit, fun record => by simp only [of, AttrForm.flag, absent]; rfl⟩
  sound _ text digit record := by
    obtain ⟨b, read⟩ := AttrValue.exists_asFlag?_of_isDigit digit
    simp [of, AttrForm.flag, read]

/-- A table is read alike from an element and from its document. -/
theorem agrees_readAll {element : Element} (name : element.name = keyword tag)
    (settled : element.every Element.hasSettledTexts) {table : List (AttrField σ)}
    (alike : ∀ field ∈ table, field.ReadsAlike tag) (record : σ) :
    Agrees (readAll element table record) (readAll element.reread table record) := by
  induction table generalizing record with
  | nil => exact .ok record
  | cons field table ih =>
    obtain ⟨here, there⟩ := List.forall_mem_cons.mp alike
    rw [readAll, readAll, Element.attribute?_reread]
    cases found : element.attribute? field.attributeName with
    | none => exact ih there record
    | some value =>
      have own := Element.isSettled_of_attribute? settled found
      have complaint : invalid element.reread field.attributeName value.reread =
          invalid element field.attributeName value := by
        rw [invalid, invalid, Element.name_reread, own.shown_reread]
      simp only [Option.map_some, complaint]
      -- A value that is refused as a text is not the text of a truth value.
      have sound (record : σ) (refused : field.read value.reread record = none) :
          ¬(invalid element field.attributeName value).isNumberedFlag := by
        rw [own.reread_eq] at refused
        rw [invalid, name]
        intro numbered
        obtain ⟨flag, digit⟩ := Problem.isNumberedFlag_invalidAttribute.mp numbered
        exact here.sound flag digit record refused
      rcases here.same value own with same | ⟨flag, digit, refused⟩
      · rw [same]
        cases said : field.read value record with
        | some record => exact ih there record
        | none => exact .of_error (sound record ((same record).trans said))
      · rw [refused]
        constructor
        · refine .inr ⟨_, rfl, ?_⟩
          rw [invalid, name]
          exact Problem.isNumberedFlag_invalidAttribute.mpr ⟨flag, digit⟩
        · cases said : field.read value.reread record with
          | some record => exact (ih there record).sound
          | none =>
            rw [own.reread_eq] at said
            exact absurd said (here.sound flag digit record)

end AttrField

end Stylesheet

/-! ## Symbolizers -/

open Stylesheet.AttrField Stylesheet.AttrForm

theorem Fill.readsAlike_table {tag : DrawingTag} (bare : flagNames tag = []) :
    ∀ field ∈ table, field.ReadsAlike tag := by
  simp [table, bare, readsAlike_of, ignoresTypes_text, ignoresTypes_number, ignoresTypes_switch]

theorem Line.readsAlike_table {tag : DrawingTag} (bare : flagNames tag = []) :
    ∀ field ∈ table, field.ReadsAlike tag := by
  simp [table, bare, readsAlike_of, ignoresTypes_text, ignoresTypes_number, ignoresTypes_keyword,
    ignoresTypes_numbers]

theorem Mark.readsAlike_table : ∀ field ∈ table, field.ReadsAlike .markers := by
  simp (disch := decide) [table, readsAlike_of ignoresTypes_text, readsAlike_of ignoresTypes_number,
    readsAlike_of ignoresTypes_rotation, readsAlike_flag]

theorem Icon.readsAlike_table : ∀ field ∈ table, field.ReadsAlike .markers := by
  simp (disch := decide) [table, readsAlike_of ignoresTypes_text, readsAlike_of ignoresTypes_number,
    readsAlike_of ignoresTypes_rotation, readsAlike_flag]

theorem Raster.readsAlike_table : ∀ field ∈ table, field.ReadsAlike .raster := by
  simp (disch := decide) [table, readsAlike_of ignoresTypes_number]

theorem Label.readsAlike_table : ∀ field ∈ table, field.ReadsAlike .text := by
  simp (disch := decide) [table, companion, readsAlike_of ignoresTypes_text,
    readsAlike_of ignoresTypes_number, readsAlike_of (ignoresTypes_keyword _),
    readsAlike_of ignoresTypes_names, readsAlike_flag]

section Elements

variable {element : Element} (settled : element.every Element.hasSettledTexts)

include settled

theorem Fill.agrees_ofElement {tag : DrawingTag} (bare : flagNames tag = [])
    (name : element.name = keyword tag) :
    Agrees (ofElement element).result (ofElement element.reread).result := by
  simp only [ofElement, Traced.result_bind, Traced.result_ofExcept,
    Element.attributeText?_reread settled]
  exact (agrees_readAll name settled (readsAlike_table bare) {}).bind fun area => .ok _

theorem Line.agrees_ofElement {tag : DrawingTag} (bare : flagNames tag = [])
    (name : element.name = keyword tag) :
    Agrees (ofElement element).result (ofElement element.reread).result := by
  simp only [ofElement, Traced.result_bind, Traced.result_ofExcept,
    Element.attributeText?_reread settled, Element.name_reread]
  exact (agrees_readAll name settled (readsAlike_table bare) {}).bind fun stroke => .ok _

theorem Stylesheet.drawsIcon_reread : drawsIcon element.reread = drawsIcon element := by
  simp only [drawsIcon, Element.attributeText?_reread settled, Element.attribute?_reread,
    Option.isSome_map]

theorem Stylesheet.agrees_markerOfElement (name : element.name = keyword DrawingTag.markers) :
    Agrees (markerOfElement element).result (markerOfElement element.reread).result := by
  simp only [markerOfElement, drawsIcon_reread settled, Element.attributeText?_reread settled]
  split
  · simp only [Traced.result_bind, Traced.result_ofExcept]
    exact (agrees_readAll name settled Icon.readsAlike_table {}).bind fun image => .ok _
  · simp only [Traced.result_bind, Traced.result_ofExcept]
    exact (agrees_readAll name settled Mark.readsAlike_table _).bind fun symbol => .ok _

theorem Raster.agrees_ofElement (name : element.name = keyword DrawingTag.raster) :
    Agrees (ofElement element).result (ofElement element.reread).result := by
  simp only [ofElement, Traced.result_bind, Traced.result_ofExcept]
  exact (agrees_readAll name settled readsAlike_table {}).bind fun cover => .ok _

theorem Label.anchorOf_reread : anchorOf element.reread = anchorOf element := by
  simp only [anchorOf, Element.attributeText?_reread settled]

theorem Label.agrees_ofElement (name : element.name = keyword DrawingTag.text) :
    Agrees (ofElement element).result (ofElement element.reread).result := by
  obtain ⟨anchor, placed⟩ := exists_result_anchorOf element
  rw [result_ofElement, result_ofElement, Element.text_reread settled, anchorOf_reread settled,
    placed]
  exact (agrees_readAll name settled readsAlike_table _).bind fun label => .ok _

/-- The symbolizer of an element and that of its document. -/
theorem Symbolizer.agrees_ofElement :
    Agrees (ofElement element).result (ofElement element.reread).result := by
  simp only [ofElement, Element.name_reread]
  cases known : (Vocabulary.ofKeyword? element.name : Option DrawingTag) with
  | none => exact .of_error (by simp [Problem.isNumberedFlag])
  | some tag =>
    have name := (Vocabulary.ofKeyword?_eq_some_iff.mp known).symm
    cases tag with
    | polygon => exact (Fill.agrees_ofElement settled rfl name).wrap _
    | polygonPattern => exact (Fill.agrees_ofElement settled rfl name).wrap _
    | line => exact (Line.agrees_ofElement settled rfl name).wrap _
    | linePattern => exact (Line.agrees_ofElement settled rfl name).wrap _
    | markers => exact agrees_markerOfElement settled name
    | raster => exact (Raster.agrees_ofElement settled name).wrap _
    | text => exact (Label.agrees_ofElement settled name).wrap _

end Elements

/-- The symbolizers of elements and those of their documents. -/
theorem Symbolizer.agrees_ofElementsFrom {elements : List Element}
    (settled : ∀ element ∈ elements, element.every Element.hasSettledTexts) (index : Nat) :
    Agrees (ofElementsFrom index elements).result
      (ofElementsFrom index (elements.map Element.reread)).result := by
  induction elements generalizing index with
  | nil => exact .ok []
  | cons element others ih =>
    obtain ⟨here, there⟩ := List.forall_mem_cons.mp settled
    simp only [List.map_cons, ofElementsFrom, Traced.result_bind, Traced.result_mapProblem,
      Element.name_reread]
    have first := (agrees_ofElement here).mapError (.inSymbolizer index element.name) fun _ => rfl
    refine first.bind fun symbolizer => ?_
    exact (ih there (index + 1)).bind fun symbolizers => .ok _

/-! ## Rules -/

section Rules

variable {rule : Element} (settled : rule.every Element.hasSettledTexts)

include settled

theorem ScaleRange.boundOf_reread (tag : String) : boundOf rule.reread tag = boundOf rule tag := by
  rw [boundOf, boundOf, Element.firstChild?_reread]
  cases first : rule.firstChild? tag with
  | none => rfl
  | some child =>
    have own := Element.every_child settled (List.mem_of_find?_eq_some first)
    simp only [Option.map_some, Element.text_reread own]

theorem ScaleRange.ofRule_reread : ofRule rule.reread = ofRule rule := by
  simp only [ofRule, boundOf_reread settled]

theorem Rule.filterText?_reread : filterText? rule.reread = filterText? rule := by
  rw [filterText?, filterText?, Element.firstChild?_reread, Element.attributeText?_reread settled]
  cases first : rule.firstChild? filterTag with
  | none => rfl
  | some child =>
    exact Element.text_reread
      (Element.every_child settled (List.mem_of_find?_eq_some first))

/-- The rule of an element and that of its document. -/
theorem Rule.agrees_ofElement :
    Agrees (ofElement rule).result (ofElement rule.reread).result := by
  have drawn : (rule.reread.children.filter fun child => !conditionTags.contains child.name) =
      (drawingChildren rule).map Element.reread := by
    simp only [drawingChildren, Element.children_reread, List.filter_map, Function.comp_def,
      Element.name_reread]
  rw [result_ofElement_eq, result_ofElement_eq, filterText?_reread settled,
    ScaleRange.ofRule_reread settled, Element.attributeText?_reread settled, drawn]
  have symbolizers := @Symbolizer.agrees_ofElementsFrom (drawingChildren rule)
    (fun child member => Element.every_child settled (List.mem_filter.mp member).1) 0
  have bound {tag : String} :
      Agrees (ScaleRange.boundOf rule tag) (ScaleRange.boundOf rule tag) := by
    refine .rfl_of fun problem refused => ?_
    obtain ⟨text, -, -, rfl⟩ := boundOf_eq_error_iff.mp refused
    simp [Problem.isNumberedFlag]
  have range : Agrees (ScaleRange.ofRule rule) (ScaleRange.ofRule rule) :=
    bound.bind fun min => bound.bind fun max => .ok _
  refine (Agrees.rfl_of fun problem refused => ?_).bind fun filter => ?_
  · obtain ⟨text, cause, -, -, -, rfl⟩ := filter_eq_error_iff.mp refused
    simp [Problem.isNumberedFlag]
  · exact symbolizers.bind fun symbolizers => range.bind fun range => .ok _

end Rules

/-! ## Styles -/

namespace Style

/-- The rules of elements and those of their documents. -/
theorem agrees_rulesOf {elements : List Element}
    (settled : ∀ element ∈ elements, element.every Element.hasSettledTexts) (index : Nat) :
    Agrees (rulesOf index elements).result
      (rulesOf index (elements.map Element.reread)).result := by
  induction elements generalizing index with
  | nil => exact .ok []
  | cons element others ih =>
    obtain ⟨here, there⟩ := List.forall_mem_cons.mp settled
    simp only [List.map_cons, rulesOf, Element.name_reread, Element.attributeText?_reread here]
    split
    · simp only [Traced.result_bind, Traced.result_mapProblem]
      have first := (Rule.agrees_ofElement here).mapError
        (.inRule index (element.attributeText? nameAttribute)) fun _ => rfl
      refine first.bind fun rule => ?_
      exact (ih there (index + 1)).bind fun rules => .ok _
    · simp only [Traced.result_bind]
      exact (Agrees.ok ()).bind fun _ => ih there index

theorem styleOf?_reread (root : Element) :
    styleOf? root.reread = (styleOf? root).map Element.reread := by
  simp only [styleOf?, Element.name_reread, Element.firstChild?_reread]
  split
  · rfl
  · split <;> rfl

theorem every_styleOf? {root style : Element} (settled : root.every Element.hasSettledTexts)
    (found : styleOf? root = some style) : style.every Element.hasSettledTexts := by
  rw [styleOf?] at found
  split at found
  · exact Element.every_child settled (List.mem_of_find?_eq_some found)
  · split at found
    · cases found
      exact settled
    · cases found

/-- The style of a tree and that of its document. -/
theorem agrees_ofElement {root : Element} (settled : root.every Element.hasSettledTexts) :
    Agrees (ofElement root).result (ofElement root.reread).result := by
  rw [ofElement, ofElement, Traced.result_bind, Traced.result_bind, result_find, result_find,
    styleOf?_reread, Element.name_reread]
  cases found : styleOf? root with
  | none =>
    simp only [Option.map_none, Option.elim_none]
    split <;> exact .of_error (by simp [Problem.isNumberedFlag])
  | some style =>
    have own := every_styleOf? settled found
    simp only [Option.map_some, Option.elim_some, ok_bind, Element.children_reread,
      Element.attributeText?_reread own, Traced.result_bind]
    exact (agrees_rulesOf (fun _ => Element.every_child own) 0).bind fun rules => .ok _

end Style

end CartoStyle
