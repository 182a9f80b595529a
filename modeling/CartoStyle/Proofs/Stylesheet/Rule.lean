import CartoStyle.Proofs.Stylesheet.Arrival
import CartoStyle.Proofs.Stylesheet.Fixed

/-!
# Rules read back

The children of a rule stand in three groups, of which the reader finds each by the names of its
elements. What it reads is `Rule.returned`: the name is settled, a range without a bound is gone,
the filter is that of its expression as it arrives, and the symbolizers are what is left of each. A
rule is read back so, exactly if its filter can be parsed and its symbolizers are sound
(`Rule.result_ofElement`, `Rule.isSound_of_read`).
-/

namespace CartoStyle

open Stylesheet
open Xml (AttrValue Element)

variable {way : Carriage} {options : Options} {arrive : Element → Element} {glyphs : Glyphs}

/-! ## Scale -/

namespace ScaleRange

/-- A range as it is read back. -/
def returned (range : Option ScaleRange) : Option ScaleRange :=
  range.filter fun range => !range.isUnbounded

/-- A bound is read back. -/
theorem boundOf_eq_ok (arrival : way.Arrival options arrive) {rule : Element} {tag : String}
    {bound : Option Binary64} (found : rule.firstChild? tag = bound.map (boundElement tag)) :
    boundOf (arrive rule) tag = .ok bound := by
  rw [boundOf, arrival.firstChild?_eq, found]
  cases bound with
  | none => rfl
  | some bound =>
    have visible : way.inner bound.text = bound.text := by
      apply way.inner_of_isVisible
      rw [Binary64.text, String.toList_ofList]
      exact fun _ => Binary64.isVisible_of_mem_chars
    have text : Text.trim ((arrive (boundElement tag bound)).text.getD "").toList =
        Text.trim (bound.chars .plain) := by
      rw [arrival.text_eq]
      refine (way.trim_content bound.text).trans ?_
      rw [visible, Binary64.text, String.toList_ofList]
    simp only [Option.map_some, text, Binary64.numberOfText?_trim_chars]

/-- The range of a rule is read back. -/
theorem ofRule_eq_ok (arrival : way.Arrival options arrive) {rule : Element}
    {range : Option ScaleRange}
    (min : rule.firstChild? minScaleTag =
      (range.bind ScaleRange.min).map (boundElement minScaleTag))
    (max : rule.firstChild? maxScaleTag =
      (range.bind ScaleRange.max).map (boundElement maxScaleTag)) :
    ofRule (arrive rule) = .ok (returned range) := by
  rw [ofRule, boundOf_eq_ok arrival min, boundOf_eq_ok arrival max]
  clear min max
  cases range with
  | none => rfl
  | some range =>
    obtain ⟨min, max⟩ := range
    cases min <;> cases max <;> rfl

section Elements

variable (range : Option ScaleRange)

theorem find?_filter :
    (range.elim [] elements).find? (fun child => child.name = filterTag) = none := by
  rcases range with _ | ⟨_ | min, _ | max⟩ <;>
    simp [elements, boundElement, minScaleTag, maxScaleTag, filterTag]

theorem find?_min : (range.elim [] elements).find? (fun child => child.name = minScaleTag) =
    (range.bind ScaleRange.min).map (boundElement minScaleTag) := by
  rcases range with _ | ⟨_ | min, _ | max⟩ <;>
    simp [elements, boundElement, minScaleTag, maxScaleTag]

theorem find?_max : (range.elim [] elements).find? (fun child => child.name = maxScaleTag) =
    (range.bind ScaleRange.max).map (boundElement maxScaleTag) := by
  rcases range with _ | ⟨_ | min, _ | max⟩ <;>
    simp [elements, boundElement, minScaleTag, maxScaleTag]

theorem filter_conditionTags :
    (range.elim [] elements).filter (fun child => !conditionTags.contains child.name) = [] := by
  rcases range with _ | ⟨_ | min, _ | max⟩ <;> simp [elements, boundElement, conditionTags]

end Elements

end ScaleRange

/-! ## Filters -/

namespace Filter

/-- A filter as it is read back. -/
def returned (way : Carriage) (filter : Filter) : Filter := (filter.mapTexts way.inner).desugared

/-- A filter whose expression can be read where it arrives. -/
def isSound (way : Carriage) (filter : Filter) : Bool :=
  (filter.mapTexts way.inner).isExpressible && (filter.mapTexts way.inner).nesting ≤ 256

end Filter

namespace Rule

/-- The expression of a filter is read where it arrives. -/
theorem filterOfText_eq {filter : Filter} {text arrived : String}
    (rendered : Expression.render filter = .ok text)
    (carried : Text.trim arrived.toList = Text.trim (way.inner text).toList) :
    filterOfText arrived = (Expression.parse (way.inner text)).mapError .filter >>= fun filter =>
      .ok (some filter) := by
  have framed := Expression.isFramed_of_chars
    (Expression.render_eq_ok_iff.mp (way.render_mapTexts rendered))
  have same : Text.trimmed arrived = way.inner text := by
    rw [Text.trimmed, carried, framed.trim_eq, String.ofList_toList]
  have nonempty : (way.inner text).isEmpty = false := by
    rw [String.isEmpty_eq_false_iff]
    rintro empty
    exact framed.ne_nil (by rw [empty]; rfl)
  simp only [filterOfText, same, nonempty, Bool.false_eq_true, if_false]
  cases Expression.parse (way.inner text) <;> rfl

/-! ## The children of a rule -/

/-- The expression of the filter of a rule. -/
def expression (rule : Rule) : Except Problem (Option String) :=
  match rule.filter with
  | none => .ok none
  | some filter => ((Expression.render filter).mapError .filter).map some

/-- The element of a rule with a given expression. -/
def elementWith (rule : Rule) (text : Option String) (drawings : List Element) : Element where
  name := ruleTag
  attributes := match rule.name with
    | some name => Dictionary.empty.insert nameAttribute (.text name)
    | none => .empty
  children := rule.scaleDenominator.elim [] ScaleRange.elements ++
    (text.map fun text => { name := filterTag, text := some text }).toList ++ drawings

theorem element_eq (rule : Rule) (glyphs : Glyphs) : rule.element glyphs = do
    let text ← rule.expression
    let drawings ← drawings glyphs 0 rule.symbolizers
    return rule.elementWith text drawings := by
  rw [element, expression]
  cases rule.filter with
  | none => rfl
  | some filter =>
    simp only [filterElement]
    cases Expression.render filter <;> rfl

/-- What is built for a rule. -/
theorem element_cases {rule : Rule} {element : Element}
    (built : rule.element glyphs = .ok element) :
    ∃ text elements, rule.expression = .ok text ∧
      drawings glyphs 0 rule.symbolizers = .ok elements ∧
        element = rule.elementWith text elements := by
  rw [element_eq] at built
  obtain ⟨text, expressed, more⟩ := bind_eq_ok_iff.mp built
  obtain ⟨elements, drawn, same⟩ := bind_eq_ok_iff.mp more
  exact ⟨text, elements, expressed, drawn, (Except.ok.inj same).symm⟩

/-- Elements that draw have the names for it. -/
theorem exists_tag_of_mem_drawings {index : Nat} {symbolizers : List Symbolizer}
    {elements : List Element} (drawn : drawings glyphs index symbolizers = .ok elements)
    {element : Element} (member : element ∈ elements) :
    ∃ tag : DrawingTag, element.name = keyword tag := by
  obtain ⟨symbolizer, -, own, built, inside⟩ := Symbolizer.exists_of_mem_drawings drawn member
  exact (Symbolizer.draws_of_mem_elements built inside).exists_tag

section Children

variable (rule : Rule) (text : Option String) {elements : List Element}
  (drawn : ∀ element ∈ elements, ∃ tag : DrawingTag, element.name = keyword tag)

include drawn

/-- Elements that draw are not among those of conditions. -/
theorem find?_drawings {tag : String} (condition : tag ∈ conditionTags) :
    elements.find? (fun child => child.name = tag) = none := by
  apply List.find?_eq_none.mpr
  intro element member same
  obtain ⟨drawing, name⟩ := drawn element member
  have apart : ∀ drawing ∈ (Vocabulary.all : List DrawingTag), keyword drawing ∉ conditionTags := by
    decide
  apply apart drawing (Vocabulary.mem_all drawing)
  rw [← name, of_decide_eq_true same]
  exact condition

theorem firstChild?_elementWith_filter :
    (rule.elementWith text elements).firstChild? filterTag =
      text.map fun text => { name := filterTag, text := some text } := by
  have condition : filterTag ∈ conditionTags := by decide
  rw [Element.firstChild?, elementWith, List.find?_append, List.find?_append,
    find?_drawings drawn condition, ScaleRange.find?_filter]
  cases text <;> simp

theorem firstChild?_elementWith_min :
    (rule.elementWith text elements).firstChild? minScaleTag =
      (rule.scaleDenominator.bind ScaleRange.min).map (ScaleRange.boundElement minScaleTag) := by
  have condition : minScaleTag ∈ conditionTags := by decide
  rw [Element.firstChild?, elementWith, List.find?_append, List.find?_append,
    find?_drawings drawn condition, ScaleRange.find?_min]
  cases text <;> simp [filterTag, minScaleTag]

theorem firstChild?_elementWith_max :
    (rule.elementWith text elements).firstChild? maxScaleTag =
      (rule.scaleDenominator.bind ScaleRange.max).map (ScaleRange.boundElement maxScaleTag) := by
  have condition : maxScaleTag ∈ conditionTags := by decide
  rw [Element.firstChild?, elementWith, List.find?_append, List.find?_append,
    find?_drawings drawn condition, ScaleRange.find?_max]
  cases text <;> simp [filterTag, maxScaleTag]

theorem filter_children_elementWith :
    (rule.elementWith text elements).children.filter
      (fun child => !conditionTags.contains child.name) = elements := by
  have all : elements.filter (fun child => !conditionTags.contains child.name) = elements := by
    apply List.filter_eq_self.mpr
    intro element member
    cases condition : conditionTags.contains element.name with
    | false => rfl
    | true =>
      have absent := List.find?_eq_none.mp
        (find?_drawings drawn (List.contains_iff_mem.mp condition)) element member
      simp at absent
  rw [elementWith, List.filter_append, List.filter_append, ScaleRange.filter_conditionTags, all]
  cases text <;> simp [conditionTags]

end Children

/-! ## Reading a rule -/

/-- A rule as it is read back. -/
def returned (way : Carriage) (rule : Rule) : Rule where
  name := rule.name.map way.settled
  filter := rule.filter.map (Filter.returned way)
  scaleDenominator := ScaleRange.returned rule.scaleDenominator
  symbolizers := rule.symbolizers.flatMap (Symbolizer.returned way)

/-- A rule whose filter and symbolizers can be read where they arrive. -/
def isSound (way : Carriage) (rule : Rule) : Bool :=
  rule.filter.all (Filter.isSound way) && rule.symbolizers.all Symbolizer.isSound

/-- Finite numbers in filters, in lists and in rotations, and no bracket in the name of a property.
-/
def isRegular (rule : Rule) : Bool :=
  rule.filter.all (Filter.every Expression.isDelimited) &&
    rule.symbolizers.all Symbolizer.hasFiniteSpans

theorem filterOfText_getD (text : Option String) :
    (match text with
      | some text => filterOfText text
      | none => .ok none) = filterOfText (text.getD "") := by
  cases text <;> rfl

/-- The text of the filter of a rule that has arrived. -/
theorem filterText?_arrive (arrival : way.Arrival options arrive) (rule : Rule)
    (text : Option String)
    {elements : List Element}
    (drawn : ∀ element ∈ elements, ∃ tag : DrawingTag, element.name = keyword tag) :
    filterText? (arrive (rule.elementWith text elements)) = way.content text := by
  rw [filterText?, arrival.firstChild?_eq, rule.firstChild?_elementWith_filter text drawn]
  cases text with
  | some text => exact arrival.text_eq _
  | none =>
    have absent : (rule.elementWith none elements).attribute? filterAttribute =
        (none : Option String).map .text := by
      rw [Element.attribute?, elementWith]
      cases rule.name with
      | none => rfl
      | some name => exact Dictionary.get?_insert_of_ne _ (by decide) _
    have none_ := arrival.attributeText?_eq absent (.inr rfl)
    simpa [way.content_none] using none_

/-- The name of a rule that has arrived. -/
theorem attributeText?_name_arrive (arrival : way.Arrival options arrive) (rule : Rule)
    (text : Option String) (elements : List Element) :
    (arrive (rule.elementWith text elements)).attributeText? nameAttribute =
      rule.name.map way.settled := by
  apply arrival.attributeText?_eq _ (.inr rfl)
  rw [Element.attribute?, elementWith]
  cases rule.name with
  | none => rfl
  | some name => exact Dictionary.get?_insert_self _ _ _

/-- What the reader makes of an element; the note of a second filter changes nothing. -/
theorem result_ofElement_eq (element : Element) : (ofElement element).result = do
    let filter ← (match filterText? element with
      | some text => filterOfText text
      | none => .ok none)
    let symbolizers ← (Symbolizer.ofElements
      (element.children.filter fun child => !conditionTags.contains child.name)).result
    let scaleDenominator ← ScaleRange.ofRule element
    return {
      name := element.attributeText? nameAttribute
      filter
      scaleDenominator
      symbolizers } := by
  have noted (several : Prop) [Decidable several] (next : Unit → Traced Rule) :
      (if several then Traced.note .repeatedFilter >>= next else next ()).result =
        (next ()).result := by
    split <;> rfl
  rw [ofElement]
  refine (noted _ _).trans ?_
  simp only [Traced.result_bind, Traced.result_ofExcept, Traced.result_pure]
  rfl

/-- What the reader makes of the element of a rule. -/
theorem result_ofElement_elementWith (arrival : way.Arrival options arrive) (rule : Rule)
    (text : Option String) {elements : List Element}
    (drawn : ∀ element ∈ elements, ∃ tag : DrawingTag, element.name = keyword tag) :
    (ofElement (arrive (rule.elementWith text elements))).result = do
      let filter ← filterOfText ((way.content text).getD "")
      let symbolizers ← (Symbolizer.ofElements (elements.map arrive)).result
      return {
        name := rule.name.map way.settled
        filter
        scaleDenominator := ScaleRange.returned rule.scaleDenominator
        symbolizers } := by
  have range := ScaleRange.ofRule_eq_ok arrival (rule.firstChild?_elementWith_min text drawn)
    (rule.firstChild?_elementWith_max text drawn)
  have children : (arrive (rule.elementWith text elements)).children.filter
      (fun child => !conditionTags.contains child.name) = elements.map arrive := by
    rw [arrival.children_eq, List.filter_map]
    simp only [Function.comp_def, arrival.name_eq, rule.filter_children_elementWith text drawn]
  rw [result_ofElement_eq, ← filterOfText_getD]
  simp only [ok_bind, range, children, filterText?_arrive arrival rule text drawn,
    attributeText?_name_arrive arrival rule text elements]

theorem exists_render_of_expression {rule : Rule} {text : Option String} {filter : Filter}
    (has : rule.filter = some filter) (expressed : rule.expression = .ok text) :
    ∃ rendered, Expression.render filter = .ok rendered ∧ text = some rendered := by
  rw [expression, has] at expressed
  obtain ⟨rendered, here, same⟩ := map_eq_ok_iff.mp expressed
  exact ⟨rendered, mapError_eq_ok_iff.mp here, same.symm⟩

theorem expression_of_none {rule : Rule} (has : rule.filter = none) :
    rule.expression = .ok none := by
  rw [expression, has]

/-- A sound filter is read back. -/
theorem filterOfText_content {rule : Rule} {text : Option String}
    (expressed : rule.expression = .ok text)
    (sound : rule.filter.all (Filter.isSound way)) :
    filterOfText ((way.content text).getD "") = .ok (rule.filter.map (Filter.returned way)) := by
  cases has : rule.filter with
  | none =>
    rw [expression_of_none has] at expressed
    cases expressed
    rw [way.content_none]
    rfl
  | some filter =>
    obtain ⟨rendered, here, rfl⟩ := exists_render_of_expression has expressed
    rw [has] at sound
    obtain ⟨expressible, shallow⟩ := Bool.and_eq_true_iff.mp sound
    have parsed := Expression.parse_of_isExpressible (way.render_mapTexts here) expressible
      (of_decide_eq_true shallow)
    rw [filterOfText_eq here (way.trim_content rendered), parsed]
    rfl

/-- A filter that is read back was sound if its names and numbers are regular. -/
theorem isSound_filter_of_read {rule : Rule} {text : Option String} {read : Option Filter}
    (expressed : rule.expression = .ok text)
    (delimited : rule.filter.all (Filter.every Expression.isDelimited))
    (done : filterOfText ((way.content text).getD "") = .ok read) :
    rule.filter.all (Filter.isSound way) := by
  cases has : rule.filter with
  | none => rfl
  | some filter =>
    obtain ⟨rendered, here, rfl⟩ := exists_render_of_expression has expressed
    rw [has] at delimited
    rw [filterOfText_eq here (way.trim_content rendered)] at done
    obtain ⟨back, parsed, -⟩ := bind_eq_ok_iff.mp done
    have inside : ∀ text, ∀ c ∈ (way.inner text).toList, c = '\n' ∨ c ∈ text.toList :=
      fun _ _ => way.mem_inner
    obtain ⟨-, expressible, shallow⟩ := Expression.eq_desugared_of_parse (way.render_mapTexts here)
      (Filter.isDelimited_mapTexts inside delimited) (mapError_eq_ok_iff.mp parsed)
    exact Bool.and_eq_true_iff.mpr ⟨expressible, decide_eq_true shallow⟩

section Reading

variable {rule : Rule} {element : Element} (arrival : way.Arrival options arrive)
  (built : rule.element glyphs = .ok element)
  (left : ∀ child ∈ element.children, options.leaves child)

include arrival built left

/-- A sound rule is read back. -/
theorem result_ofElement (sound : rule.isSound way) :
    (ofElement (arrive element)).result = .ok (rule.returned way) := by
  obtain ⟨text, elements, expressed, drawn, rfl⟩ := element_cases built
  obtain ⟨filter, symbolizers⟩ := Bool.and_eq_true_iff.mp sound
  have carries : ∀ child ∈ elements, way.Carries child (arrive child) := fun child member =>
    arrival.carries (left child (List.mem_append_right _ member))
  have read : (Symbolizer.ofElements (elements.map arrive)).result =
      .ok (rule.symbolizers.flatMap (Symbolizer.returned way)) :=
    Symbolizer.result_ofElementsFrom_drawings drawn (List.all_eq_true.mp symbolizers) carries 0
  rw [result_ofElement_elementWith arrival rule text fun _ => exists_tag_of_mem_drawings drawn,
    filterOfText_content expressed filter, read]
  rfl

/-- A rule that is read back was sound if its names and numbers are regular. -/
theorem isSound_of_read (regular : rule.isRegular) {read : Rule}
    (done : (ofElement (arrive element)).result = .ok read) : rule.isSound way := by
  obtain ⟨text, elements, expressed, drawn, rfl⟩ := element_cases built
  obtain ⟨delimited, finite⟩ := Bool.and_eq_true_iff.mp regular
  have carries : ∀ child ∈ elements, way.Carries child (arrive child) := fun child member =>
    arrival.carries (left child (List.mem_append_right _ member))
  rw [result_ofElement_elementWith arrival rule text fun _ =>
    exists_tag_of_mem_drawings drawn] at done
  obtain ⟨filter, here, more⟩ := bind_eq_ok_iff.mp done
  obtain ⟨symbolizers, there, -⟩ := bind_eq_ok_iff.mp more
  have sound := Symbolizer.isSound_of_read_drawings drawn (List.all_eq_true.mp finite) carries there
  exact Bool.and_eq_true_iff.mpr
    ⟨isSound_filter_of_read expressed delimited here, List.all_eq_true.mpr sound⟩

end Reading

end Rule

/-! ## Writing again what has been read back -/

/-- What has been read back is no longer changed by the way. -/
theorem Filter.mapTexts_returned (filter : Filter) :
    (filter.returned way).mapTexts way.inner = filter.returned way := by
  rw [returned, ← desugared_mapTexts, mapTexts_mapTexts way.inner_inner]

@[simp] theorem Filter.returned_returned (filter : Filter) :
    (filter.returned way).returned way = filter.returned way := by
  rw [returned, mapTexts_returned, returned, desugared_desugared]

theorem Filter.isSound_returned (filter : Filter) :
    (filter.returned way).isSound way = filter.isSound way := by
  rw [isSound, mapTexts_returned, returned, isExpressible_desugared, nesting_desugared, isSound]

theorem Filter.exists_render_returned {filter : Filter} {text : String}
    (rendered : Expression.render filter = .ok text) :
    ∃ text, Expression.render (filter.returned way) = .ok text := by
  have settled := way.render_mapTexts rendered
  rw [Expression.render, ← Expression.chars_desugared] at settled
  exact ⟨_, settled⟩

@[simp] theorem ScaleRange.returned_returned (range : Option ScaleRange) :
    returned (returned range) = returned range := by
  rcases range with _ | ⟨_ | min, _ | max⟩ <;> rfl

/-- Symbolizers that are all read back as they are. -/
theorem Symbolizer.flatMap_returned_of_forall {symbolizers : List Symbolizer}
    (same : ∀ symbolizer ∈ symbolizers, symbolizer.returned way = [symbolizer]) :
    symbolizers.flatMap (returned way) = symbolizers := by
  induction symbolizers with
  | nil => rfl
  | cons symbolizer others ih =>
    rw [List.flatMap_cons, same symbolizer (List.mem_cons_self ..),
      ih fun other member => same other (List.mem_cons_of_mem _ member), List.singleton_append]

@[simp] theorem Symbolizer.flatMap_returned_flatMap_returned (symbolizers : List Symbolizer) :
    (symbolizers.flatMap (returned way)).flatMap (returned way) =
      symbolizers.flatMap (returned way) := by
  apply flatMap_returned_of_forall
  intro left member
  obtain ⟨symbolizer, -, inside⟩ := List.mem_flatMap.mp member
  exact (remains_of_mem_returned inside).returned_eq

/-- Symbolizers that have been read back can be written. -/
theorem Symbolizer.exists_drawings_returned {start : Nat} {symbolizers : List Symbolizer}
    {elements : List Element} (built : Rule.drawings glyphs start symbolizers = .ok elements)
    (index : Nat) :
    ∃ elements, Rule.drawings glyphs index (symbolizers.flatMap (returned way)) = .ok elements := by
  apply exists_drawings_iff.mpr
  intro left member
  obtain ⟨symbolizer, present, inside⟩ := List.mem_flatMap.mp member
  obtain ⟨elements, before⟩ := exists_drawings_iff.mp ⟨elements, built⟩ symbolizer present
  exact (remains_of_mem_returned inside).exists_elements before

namespace Rule

@[simp] theorem returned_returned (rule : Rule) :
    (rule.returned way).returned way = rule.returned way := by
  cases filter : rule.filter <;> simp [returned, filter]

theorem isSound_returned {rule : Rule} (sound : rule.isSound way) :
    (rule.returned way).isSound way := by
  obtain ⟨filter, symbolizers⟩ := Bool.and_eq_true_iff.mp sound
  apply Bool.and_eq_true_iff.mpr
  constructor
  · rw [returned]
    cases has : rule.filter with
    | none => rfl
    | some given =>
      rw [has] at filter
      exact (Filter.isSound_returned given).trans filter
  · apply List.all_eq_true.mpr
    intro left member
    obtain ⟨symbolizer, present, inside⟩ := List.mem_flatMap.mp member
    exact (Symbolizer.remains_of_mem_returned inside).isSound
      (List.all_eq_true.mp symbolizers symbolizer present)

/-- A rule that has been read back can be written. -/
theorem exists_element_returned {rule : Rule} {element : Element}
    (built : rule.element glyphs = .ok element) :
    ∃ element, (rule.returned way).element glyphs = .ok element := by
  obtain ⟨text, elements, expressed, drawn, -⟩ := element_cases built
  obtain ⟨elements, again⟩ : ∃ elements, drawings glyphs 0 (rule.returned way).symbolizers =
      .ok elements := Symbolizer.exists_drawings_returned drawn 0
  have text : ∃ text, (rule.returned way).expression = .ok text := by
    rw [expression, returned]
    cases has : rule.filter with
    | none => exact ⟨none, rfl⟩
    | some filter =>
      obtain ⟨rendered, here, -⟩ := exists_render_of_expression has expressed
      obtain ⟨settled, there⟩ : ∃ text, Expression.render (filter.returned way) = .ok text :=
        Filter.exists_render_returned here
      exact ⟨some settled, by simp only [Option.map_some, there]; rfl⟩
  obtain ⟨text, expressed⟩ := text
  exact ⟨_, by rw [element_eq, expressed, again]; rfl⟩

end Rule

end CartoStyle
