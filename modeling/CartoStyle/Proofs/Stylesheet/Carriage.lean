import CartoStyle.Proofs.Filter.Settled
import CartoStyle.Proofs.Stylesheet.AttrField
import CartoStyle.Proofs.Stylesheet.Glyph
import CartoStyle.Proofs.Stylesheet.NumberList
import CartoStyle.Proofs.Xml.RoundTrip
import CartoStyle.Proofs.Xml.Settled
import CartoStyle.Stylesheet.Drawing

/-!
# From the writer to the reader

What is written reaches the reader as it is, or by way of a document, where every value becomes a
text in which space is settled. A `Carriage` says what becomes of values and texts on the way, and
that numbers, truth values and visible characters arrive. From this follows what becomes of a part
of a record in each of the forms of attributes (`Carriage.arrives_text` and those after it).
-/

namespace CartoStyle.Stylesheet

open Text (isVisible)
open Xml (AttrValue Element)

/-- What becomes of values and texts on the way from the writer to the reader. -/
structure Carriage where
  value : AttrValue → AttrValue
  content : Option String → Option String
  /-- What becomes of a string that is the value of an attribute. -/
  settled : String → String
  /-- What becomes of a string within a text. -/
  inner : String → String
  shown_value (v : AttrValue) : (value v).shown = settled v.shown
  asNumber?_value (x : Binary64) : (value (.number x)).asNumber? = some x
  asFlag?_value (b : Bool) : (value (.flag b)).asFlag? = some b
  content_none : content none = none
  trim_content (text : String) :
    Text.trim ((content (some text)).getD "").toList = Text.trim (inner text).toList
  /-- Characters that have arrived, blanks and visible characters stay as they are. -/
  settled_of_arrived (value : String) {text : String}
    (known : ∀ c ∈ text.toList, c ∈ (settled value).toList ∨ c = ' ' ∨ isVisible c) :
    settled text = text
  markOfPath?_settled (path : String) : markOfPath? (settled path) = markOfPath? path
  inner_propertyText (property : String) :
    inner (Label.propertyText property) = Label.propertyText (inner property)
  inner_of_isVisible {visible : String} (seen : ∀ c ∈ visible.toList, isVisible c) :
    inner visible = visible
  inner_inner (text : String) : inner (inner text) = inner text
  mem_settled {value : String} {c : Char} (member : c ∈ (settled value).toList) :
    c = ' ' ∨ c ∈ value.toList
  mem_inner {text : String} {c : Char} (member : c ∈ (inner text).toList) :
    c = '\n' ∨ c ∈ text.toList
  render_mapTexts {filter : Filter} {text : String}
    (rendered : Expression.render filter = .ok text) :
    Expression.render (filter.mapTexts inner) = .ok (inner text)

namespace Carriage

/-- The reader has what was written. -/
def direct : Carriage where
  value v := v
  content text := text
  settled value := value
  inner text := text
  shown_value _ := rfl
  asNumber?_value _ := rfl
  asFlag?_value _ := rfl
  content_none := rfl
  trim_content _ := rfl
  settled_of_arrived _ _ _ := rfl
  markOfPath?_settled _ := rfl
  inner_propertyText _ := rfl
  inner_of_isVisible _ := rfl
  inner_inner _ := rfl
  mem_settled := .inr
  mem_inner := .inr
  render_mapTexts {filter} _ rendered := by rwa [filter.mapTexts_self]

/-- A string that has been the value of an attribute. -/
def settledString (value : String) : String := String.ofList (Xml.settledValue value.toList)

/-- A string that has been inside a text. -/
def innerString (text : String) : String := String.ofList (Xml.interior text.toList)

theorem trim_settledText (text : String) :
    Text.trim ((Xml.settledText text).getD "").toList =
      Text.trim (innerString text).toList := by
  rw [innerString, String.toList_ofList, ← Xml.trim_lineEnds false text.toList, Xml.settledText,
    Xml.OpenElement.toList_getD_text?, Text.trim_trim]

theorem toList_propertyText (property : String) :
    (Label.propertyText property).toList = ['['] ++ (property.toList ++ [']']) := by
  have parts : Label.propertyText property = "[" ++ property ++ "]" := rfl
  rw [parts, String.toList_append, String.toList_append, List.append_assoc]
  rfl

theorem innerString_propertyText (property : String) :
    innerString (Label.propertyText property) = Label.propertyText (innerString property) := by
  have closing : Xml.interior (property.toList ++ [']']) = Xml.interior property.toList ++ [']'] :=
    Xml.interior_append _ (by decide) (by decide) []
  apply String.toList_inj.mp
  rw [innerString, String.toList_ofList, toList_propertyText, toList_propertyText, innerString,
    String.toList_ofList, Xml.interior_append_of_not_mem (by decide), closing]

/-- The reader has a document. -/
def document : Carriage where
  value := AttrValue.reread
  content text := Xml.settledText (text.getD "")
  settled := settledString
  inner := innerString
  shown_value _ := rfl
  asNumber?_value x := by
    have same : Xml.settledValue x.text.toList = x.chars .plain := by
      rw [Binary64.text, String.toList_ofList]
      exact Xml.settledValue_of_isVisible fun _ => Binary64.isVisible_of_mem_chars
    rw [AttrValue.reread, AttrValue.asNumber?, AttrValue.shown, same, String.toList_ofList]
    exact Binary64.numberOfText?_trim_chars x
  asFlag?_value b := by cases b <;> decide
  content_none := rfl
  trim_content := trim_settledText
  settled_of_arrived value {text} known := by
    have plain : Xml.settledValue text.toList = text.toList := by
      apply Xml.settledValue_of_forall
      intro c member
      rcases known c member with arrived | rfl | visible
      · rw [settledString, String.toList_ofList] at arrived
        exact Xml.plain_of_mem_settledValue arrived
      · decide
      · refine ⟨?_, ?_, ?_⟩ <;> rintro rfl <;> cases visible
    rw [settledString, plain, String.ofList_toList]
  markOfPath?_settled := markOfPath?_settledValue
  inner_propertyText := innerString_propertyText
  inner_of_isVisible {visible} seen := by
    rw [innerString, Xml.interior_of_isVisible seen, String.ofList_toList]
  inner_inner text := by simp [innerString]
  mem_settled member := by
    rw [settledString, String.toList_ofList] at member
    exact (Xml.mem_settledValue member).imp_right And.right
  mem_inner member := by
    rw [innerString, String.toList_ofList] at member
    exact Xml.mem_interior member
  render_mapTexts rendered := by
    apply Expression.render_eq_ok_iff.mpr
    rw [innerString, String.toList_ofList]
    exact Expression.chars_mapTexts (fun _ => String.toList_ofList)
      (Expression.render_eq_ok_iff.mp rendered)

/-! ## Parts of records -/

variable (way : Carriage)

theorem settled_of_isVisible {visible : String} (seen : ∀ c ∈ visible.toList, isVisible c) :
    way.settled visible = visible :=
  way.settled_of_arrived "" fun c member => .inr (.inr (seen c member))

@[simp] theorem settled_settled (value : String) :
    way.settled (way.settled value) = way.settled value :=
  way.settled_of_arrived value fun _ member => .inl member

theorem shown_text (text : String) : (way.value (.text text)).shown = way.settled text :=
  way.shown_value _

theorem arrives_text (part : Option String) :
    AttrForm.text.Arrives way.value part (part.map way.settled) := by
  cases part with
  | none => rfl
  | some text => exact ⟨way.settled text, rfl, congrArg some (way.shown_text text)⟩

theorem arrives_number (part : Option Binary64) : AttrForm.number.Arrives way.value part part := by
  cases part with
  | none => rfl
  | some x => exact ⟨x, rfl, way.asNumber?_value x⟩

theorem arrives_flag (part : Option Bool) : AttrForm.flag.Arrives way.value part part := by
  cases part with
  | none => rfl
  | some b => exact ⟨b, rfl, way.asFlag?_value b⟩

theorem arrives_switch (part : Option Bool) : AttrForm.switch.Arrives way.value part part := by
  cases part with
  | none => rfl
  | some b =>
    refine ⟨b, rfl, ?_⟩
    simp only [AttrForm.switch, way.asNumber?_value]
    cases b <;> rfl

/-- The keywords of a vocabulary are visible. -/
theorem arrives_keyword {α : Type} [Vocabulary α]
    (seen : ∀ value : α, ∀ c ∈ (keyword value).toList, isVisible c) (part : Option α) :
    (AttrForm.keyword α).Arrives way.value part part := by
  cases part with
  | none => rfl
  | some value =>
    refine ⟨value, rfl, ?_⟩
    have trimmed : Text.trimmed (keyword value) = keyword value := by
      rw [Text.trimmed, Text.trim_of_isVisible (seen value), String.ofList_toList]
    simp only [AttrForm.keyword, way.shown_text,
      way.settled_of_isVisible (seen value), trimmed, Vocabulary.ofKeyword?_keyword]

theorem arrives_numbers {part : Option (List Binary64)}
    (sound : ∀ values ∈ part, values ≠ [] ∧ ∀ value ∈ values, value.isFinite) :
    AttrForm.numbers.Arrives way.value part part := by
  cases part with
  | none => rfl
  | some values =>
    obtain ⟨nonempty, finite⟩ := sound values rfl
    refine ⟨values, rfl, ?_⟩
    simp only [AttrForm.numbers, way.shown_text,
      way.settled_of_isVisible fun _ => isVisible_of_mem_joinNumbers,
      splitNumbers?_joinNumbers nonempty finite]

/-- An empty list does not arrive. -/
theorem read_numbers_nil :
    AttrForm.numbers.read (way.value (AttrForm.numbers.write [])) = none := by
  simp only [AttrForm.numbers, way.shown_text,
    way.settled_of_isVisible fun _ => isVisible_of_mem_joinNumbers, splitNumbers?_joinNumbers_nil]

theorem arrives_rotation {part : Option Binary64} (finite : ∀ degrees ∈ part, degrees.isFinite) :
    AttrForm.rotation.Arrives way.value part part := by
  cases part with
  | none => rfl
  | some degrees =>
    refine ⟨degrees, rfl, ?_⟩
    simp only [AttrForm.rotation, way.shown_text,
      way.settled_of_isVisible fun _ => isVisible_of_mem_rotationText,
      rotation?_rotationText (finite degrees rfl)]

/-- The names of a list as they are read back. -/
def names (names : List String) : List String :=
  AttrForm.namesOf (way.settled (", ".intercalate names))

theorem arrives_names (part : Option (List String)) :
    AttrForm.names.Arrives way.value part (part.map way.names) := by
  cases part with
  | none => rfl
  | some names =>
    refine ⟨way.names names, rfl, ?_⟩
    simp only [AttrForm.names, way.shown_text, Carriage.names]

end Carriage

end CartoStyle.Stylesheet
