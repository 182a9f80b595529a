import CartoStyle.Proofs.Stylesheet.ReadFault
import Mathlib.Logic.Relation

/-!
# What the reader passes over

A stylesheet may hold more than the reader asks for: elements that it does not know, a second
filter, texts and attributes without a use, or a filter in the other of its two places. Each
`Change` takes away, moves or alters one such thing in a tree. None of them changes the style that
is read, or the problem and the places it tells (`Style.result_ofElement_of_change`). So no number
of them does, whether they are made or undone (`Style.result_ofElement_of_changes`).
-/

namespace CartoStyle

open Stylesheet
open Xml (AttrValue Attributes Element)

/-! ## Changes -/

namespace Stylesheet

/-- A change in a child of a rule: its own children, or a text that nobody reads. -/
inductive ChildChange : Element → Element → Prop where
  | children (child : Element) (others : List Element) :
      ChildChange child { child with children := others }
  | text (child : Element) (other : Option String)
      (unread : child.name ∉ keyword DrawingTag.text :: conditionTags) :
      ChildChange child { child with text := other }

/-- A change in a rule. -/
inductive RuleChange : Element → Element → Prop where
  | text (rule : Element) (other : Option String) : RuleChange rule { rule with text := other }
  /-- Other attributes than the name and the filter. -/
  | attributes (rule : Element) (others : Attributes)
      (name : others.get? nameAttribute = rule.attribute? nameAttribute)
      (filter : others.get? filterAttribute = rule.attribute? filterAttribute) :
      RuleChange rule { rule with attributes := others }
  /-- A filter or a bound goes that is not the first of its name. -/
  | repeated (rule child : Element) (before after : List Element)
      (condition : child.name ∈ conditionTags)
      (earlier : ∃ first ∈ before, first.name = child.name) :
      RuleChange { rule with children := before ++ child :: after }
        { rule with children := before ++ after }
  /-- A filter or a bound moves behind the child after it. -/
  | moved (rule child next : Element) (before after : List Element)
      (condition : child.name ∈ conditionTags) (other : next.name ≠ child.name) :
      RuleChange { rule with children := before ++ child :: next :: after }
        { rule with children := before ++ next :: child :: after }
  | child (rule : Element) {child child' : Element} (before after : List Element)
      (change : ChildChange child child') :
      RuleChange { rule with children := before ++ child :: after }
        { rule with children := before ++ child' :: after }
  /-- The only filter becomes an attribute. -/
  | filter (rule child : Element) (value : AttrValue) (before after : List Element)
      (name : child.name = filterTag) (said : child.text = some value.shown)
      (only : ∀ other ∈ before ++ after, other.name ≠ filterTag) :
      RuleChange { rule with children := before ++ child :: after }
        { rule with
          attributes := rule.attributes.insert filterAttribute value
          children := before ++ after }

/-- A change in a style. -/
inductive StyleChange : Element → Element → Prop where
  | text (style : Element) (other : Option String) : StyleChange style { style with text := other }
  /-- Other attributes than the name. -/
  | attributes (style : Element) (others : Attributes)
      (name : others.get? nameAttribute = style.attribute? nameAttribute) :
      StyleChange style { style with attributes := others }
  /-- A child goes that is no rule. -/
  | other (style child : Element) (before after : List Element) (foreign : child.name ≠ ruleTag) :
      StyleChange { style with children := before ++ child :: after }
        { style with children := before ++ after }
  | rule (style : Element) {rule rule' : Element} (before after : List Element)
      (name : rule.name = ruleTag) (change : RuleChange rule rule') :
      StyleChange { style with children := before ++ rule :: after }
        { style with children := before ++ rule' :: after }

/-- A change in the tree of a stylesheet. -/
inductive Change : Element → Element → Prop where
  | text (root : Element) (other : Option String) : Change root { root with text := other }
  /-- The attributes of a map have no meaning. -/
  | attributes (root : Element) (others : Attributes) (map : root.name = mapTag) :
      Change root { root with attributes := others }
  /-- A child of a map goes that is no style, or not the first one. -/
  | other (root child : Element) (before after : List Element) (map : root.name = mapTag)
      (foreign : child.name = styleTag → ∃ first ∈ before, first.name = styleTag) :
      Change { root with children := before ++ child :: after }
        { root with children := before ++ after }
  | inMap (root : Element) {style style' : Element} (before after : List Element)
      (map : root.name = mapTag) (name : style.name = styleTag)
      (change : StyleChange style style') :
      Change { root with children := before ++ style :: after }
        { root with children := before ++ style' :: after }
  | style {style style' : Element} (name : style.name = styleTag)
      (change : StyleChange style style') : Change style style'
  | wrapped (style : Element) (name : style.name = styleTag) :
      Change style { name := mapTag, children := [style] }

end Stylesheet

/-! ## Children that are looked for -/

section Search

variable {α β : Type} {p : α → Bool} {f : α → β} {before after : List α} {item item' : α}

/-- An item that is not asked for, or not the first one, is not found. -/
theorem find?_append_cons_of_spare (spare : p item → ∃ first ∈ before, p first) :
    (before ++ item :: after).find? p = (before ++ after).find? p := by
  simp only [List.find?_append, List.find?_cons]
  cases wanted : p item with
  | false => rfl
  | true =>
    obtain ⟨first, member, found⟩ := spare wanted
    have present : (before.find? p).isSome := List.find?_isSome.mpr ⟨first, member, found⟩
    obtain ⟨found, here⟩ := Option.isSome_iff_exists.mp present
    rw [here]
    rfl

/-- Two items of which one is not asked for are found alike in either order. -/
theorem find?_append_swap (apart : ¬(p item ∧ p item')) :
    (before ++ item :: item' :: after).find? p = (before ++ item' :: item :: after).find? p := by
  simp only [List.find?_append, List.find?_cons]
  cases first : p item with
  | false => rfl
  | true =>
    cases second : p item' with
    | false => rfl
    | true => exact absurd ⟨first, second⟩ apart

/-- An item in the place of one like it is found in its stead. -/
theorem map_find?_append_cons (asked : p item' = p item) (same : p item → f item' = f item) :
    ((before ++ item' :: after).find? p).map f = ((before ++ item :: after).find? p).map f := by
  simp only [List.find?_append, List.find?_cons, asked]
  cases before.find? p with
  | some found => rfl
  | none =>
    cases wanted : p item with
    | false => rfl
    | true => exact congrArg some (same wanted)

end Search

/-! ## Symbolizers -/

/-- What an element draws is said by its attributes, and by its text if it draws a label. -/
theorem Symbolizer.ofElement_congr {element element' : Element}
    (name : element'.name = element.name) (attributes : element'.attributes = element.attributes)
    (text : element.name = keyword DrawingTag.text → element'.text = element.text) :
    ofElement element' = ofElement element := by
  have given (key : String) : element'.attribute? key = element.attribute? key := by
    rw [Element.attribute?, Element.attribute?, attributes]
  have reads {σ : Type} (table : List (AttrField σ)) (record : σ) :
      AttrField.readAll element' table record = AttrField.readAll element table record :=
    AttrField.readAll_congr name (fun field _ => given field.attributeName) record
  have ignored {σ : Type} (table : List (AttrField σ)) (extra : List String) :
      AttrField.ignored element' table extra = AttrField.ignored element table extra := by
    rw [AttrField.ignored, AttrField.ignored, attributes, name]
  have icon : drawsIcon element' = drawsIcon element := by
    simp only [drawsIcon, Element.attributeText?, given]
  rw [ofElement, ofElement, name]
  cases known : (Vocabulary.ofKeyword? element.name : Option DrawingTag) with
  | none => rfl
  | some tag =>
    cases tag with
    | text =>
      have label := text (Vocabulary.ofKeyword?_eq_some_iff.mp known).symm
      simp only [Label.ofElement, Label.anchorOf, Element.attributeText?, given, reads, ignored,
        label]
    | _ =>
      simp only [Fill.ofElement, Line.ofElement, markerOfElement, Raster.ofElement,
        Element.attributeText?, given, reads, ignored, icon, name]

theorem Symbolizer.ofElement_of_change {child child' : Element}
    (change : ChildChange child child') : ofElement child' = ofElement child := by
  cases change with
  | children => exact ofElement_congr rfl rfl fun _ => rfl
  | text other unread =>
    exact ofElement_congr rfl rfl fun label => absurd (label ▸ List.mem_cons_self ..) unread

/-- Elements that draw alike can stand for one another. -/
theorem Symbolizer.result_ofElementsFrom_congr {child child' : Element}
    (name : child'.name = child.name) (same : ofElement child' = ofElement child) (index : Nat)
    (before after : List Element) :
    (ofElementsFrom index (before ++ child' :: after)).result =
      (ofElementsFrom index (before ++ child :: after)).result := by
  simp only [result_ofElementsFrom_append, ofElementsFrom, same, name]

/-! ## Rules -/

namespace Rule

variable {rule rule' : Element}

theorem filterText?_eq (rule : Element) : filterText? rule =
    ((rule.firstChild? filterTag).map Element.text).getD (rule.attributeText? filterAttribute) := by
  rw [filterText?]
  cases rule.firstChild? filterTag <;> rfl

theorem boundOf_congr {tag : String} (same : (rule'.firstChild? tag).map Element.text =
    (rule.firstChild? tag).map Element.text) :
    ScaleRange.boundOf rule' tag = ScaleRange.boundOf rule tag := by
  rw [ScaleRange.boundOf, ScaleRange.boundOf]
  cases first : rule.firstChild? tag <;> cases first' : rule'.firstChild? tag <;>
    simp_all

/-- What two rules have in common that are read alike. -/
structure Alike (rule rule' : Element) : Prop where
  tag : rule'.name = rule.name
  name : rule'.attributeText? nameAttribute = rule.attributeText? nameAttribute
  filter : filterText? rule' = filterText? rule
  bounds : ∀ tag ∈ [minScaleTag, maxScaleTag], (rule'.firstChild? tag).map Element.text =
    (rule.firstChild? tag).map Element.text
  drawings : (Symbolizer.ofElements (drawingChildren rule')).result =
    (Symbolizer.ofElements (drawingChildren rule)).result

theorem Alike.result_ofElement (alike : Alike rule rule') :
    (ofElement rule').result = (ofElement rule).result := by
  have min := boundOf_congr (alike.bounds minScaleTag (by decide))
  have max := boundOf_congr (alike.bounds maxScaleTag (by decide))
  have drawings := alike.drawings
  simp only [drawingChildren] at drawings
  rw [result_ofElement_eq, result_ofElement_eq]
  simp only [ScaleRange.ofRule, alike.filter, alike.name, min, max, drawings]

/-- Rules are read alike if their attributes, their first conditions and what they draw agree. -/
theorem Alike.of_conditions (tag : rule'.name = rule.name)
    (attributes : ∀ name ∈ [nameAttribute, filterAttribute],
      rule'.attribute? name = rule.attribute? name)
    (conditions : ∀ tag ∈ conditionTags, (rule'.firstChild? tag).map Element.text =
      (rule.firstChild? tag).map Element.text)
    (drawings : (Symbolizer.ofElements (drawingChildren rule')).result =
      (Symbolizer.ofElements (drawingChildren rule)).result) : Alike rule rule' where
  tag := tag
  name := by
    rw [Element.attributeText?, Element.attributeText?, attributes nameAttribute (by decide)]
  filter := by
    rw [filterText?_eq, filterText?_eq, conditions filterTag (by decide), Element.attributeText?,
      Element.attributeText?, attributes filterAttribute (by decide)]
  bounds tag member := conditions tag (List.mem_cons_of_mem _ member)
  drawings := drawings

section Children

variable {child child' : Element} {before after : List Element}

/-- A filter or a bound draws nothing. -/
theorem drawingChildren_congr_of_condition (condition : child.name ∈ conditionTags)
    (present : rule.children = before ++ child :: after)
    (absent : rule'.children = before ++ after) :
    drawingChildren rule' = drawingChildren rule := by
  simp [drawingChildren, present, absent, List.filter_append, condition]

theorem alike_of_childChange (rule : Element) (change : ChildChange child child') :
    Alike { rule with children := before ++ child :: after }
      { rule with children := before ++ child' :: after } := by
  have name : child'.name = child.name := by cases change <;> rfl
  refine .of_conditions rfl (fun _ _ => rfl) (fun tag condition => ?_) ?_
  · apply map_find?_append_cons (by rw [name])
    intro asked
    cases change with
    | children => rfl
    | text other unread =>
      obtain rfl := of_decide_eq_true asked
      exact absurd (List.mem_cons_of_mem _ condition) unread
  · simp only [drawingChildren, List.filter_append, List.filter_cons, name]
    split
    · exact Symbolizer.result_ofElementsFrom_congr name (Symbolizer.ofElement_of_change change) ..
    · rfl

theorem filterText?_of_only (name : child.name = filterTag)
    (only : ∀ other ∈ before ++ after, other.name ≠ filterTag) :
    filterText? { rule with children := before ++ child :: after } = child.text := by
  have first : before.find? (fun item => item.name = filterTag) = none :=
    List.find?_eq_none.mpr fun item member => by
      simpa using only item (List.mem_append_left after member)
  rw [filterText?_eq, Element.firstChild?, List.find?_append, first,
    List.find?_cons_of_pos (by simpa using name)]
  rfl

theorem filterText?_of_absent (absent : ∀ child ∈ rule.children, child.name ≠ filterTag) :
    filterText? rule = rule.attributeText? filterAttribute := by
  have nowhere : rule.firstChild? filterTag = none :=
    List.find?_eq_none.mpr fun item member => by simpa using absent item member
  rw [filterText?_eq, nowhere]
  rfl

theorem alike_of_filter (rule : Element) (value : AttrValue) (name : child.name = filterTag)
    (said : child.text = some value.shown)
    (only : ∀ other ∈ before ++ after, other.name ≠ filterTag) :
    Alike { rule with children := before ++ child :: after }
      { rule with
        attributes := rule.attributes.insert filterAttribute value
        children := before ++ after } where
  tag := rfl
  name := by
    rw [Element.attributeText?, Element.attributeText?, Element.attribute?,
      Dictionary.get?_insert_of_ne _ (by decide)]
    rfl
  filter := by
    rw [filterText?_of_only name only, filterText?_of_absent only, said, Element.attributeText?,
      Element.attribute?, Dictionary.get?_insert_self]
    rfl
  bounds tag member := by
    rw [Element.firstChild?, Element.firstChild?, find?_append_cons_of_spare]
    intro wanted
    obtain rfl := (of_decide_eq_true wanted).symm.trans name
    exact absurd member (by decide)
  drawings := by
    have condition : child.name ∈ conditionTags := name ▸ List.mem_cons_self ..
    exact congrArg (fun drawn => (Symbolizer.ofElements drawn).result)
      (drawingChildren_congr_of_condition condition rfl rfl)

end Children

theorem alike_of_change (change : RuleChange rule rule') : Alike rule rule' := by
  cases change with
  | text rule other => exact .of_conditions rfl (fun _ _ => rfl) (fun _ _ => rfl) rfl
  | attributes rule others name filter =>
    refine .of_conditions rfl (fun key member => ?_) (fun _ _ => rfl) rfl
    rcases List.mem_cons.mp member with rfl | last
    · exact name
    · obtain rfl := List.mem_singleton.mp last
      exact filter
  | repeated rule child before after condition earlier =>
    refine .of_conditions rfl (fun _ _ => rfl) (fun tag _ => ?_) ?_
    · rw [Element.firstChild?, Element.firstChild?, find?_append_cons_of_spare]
      intro wanted
      obtain ⟨first, member, same⟩ := earlier
      exact ⟨first, member, by simpa [same] using wanted⟩
    · exact congrArg (fun drawn => (Symbolizer.ofElements drawn).result)
        (drawingChildren_congr_of_condition condition rfl rfl)
  | moved rule child next before after condition other =>
    refine .of_conditions rfl (fun _ _ => rfl) (fun tag _ => ?_) ?_
    · rw [Element.firstChild?, Element.firstChild?, find?_append_swap]
      simp only [decide_eq_true_eq]
      rintro ⟨rfl, same⟩
      exact other same.symm
    · simp [drawingChildren, List.filter_append, List.filter_cons, condition]
  | child rule before after change => exact alike_of_childChange rule change
  | filter rule child value before after name said only =>
    exact alike_of_filter rule value name said only

end Rule

/-! ## Styles -/

namespace Style

/-- What is read of the element of a style. -/
def resultOf (style : Element) : Except Problem Style := do
  let rules ← (rulesOf 0 style.children).result
  return { name := (style.attributeText? nameAttribute).getD "", rules }

theorem result_ofElement_of_map {root : Element} (map : root.name = mapTag) :
    (ofElement root).result =
      ((root.firstChild? styleTag).map resultOf).getD (.error (.missingElement styleTag)) := by
  rw [ofElement, Traced.result_bind, result_find, styleOf?, if_pos map, if_pos map]
  cases root.firstChild? styleTag with
  | none => rfl
  | some style =>
    simp only [Option.elim_some, ok_bind, Traced.result_bind]
    rfl

theorem result_ofElement_of_style {root : Element} (style : root.name = styleTag) :
    (ofElement root).result = resultOf root := by
  have map : root.name ≠ mapTag := by
    rw [style]
    decide
  rw [ofElement, Traced.result_bind, result_find, styleOf?, if_neg map, if_pos style,
    Option.elim_some, ok_bind, Traced.result_bind]
  rfl

theorem result_ofElement_of_other {root : Element} (map : root.name ≠ mapTag)
    (style : root.name ≠ styleTag) :
    (ofElement root).result = .error (.unrecognizedElement root.name) := by
  rw [ofElement, Traced.result_bind, result_find, styleOf?, if_neg map, if_neg style, if_neg map]
  rfl

/-- A rule can stand for another that is read alike. -/
theorem result_rulesOf_congr {rule rule' : Element} (alike : Rule.Alike rule rule')
    (name : rule.name = ruleTag) (index : Nat) (before after : List Element) :
    (rulesOf index (before ++ rule' :: after)).result =
      (rulesOf index (before ++ rule :: after)).result := by
  induction before generalizing index with
  | nil =>
    rw [List.nil_append, List.nil_append, rulesOf_cons name, rulesOf_cons (alike.tag.trans name),
      alike.result_ofElement, alike.name]
  | cons first before ih =>
    simp only [List.cons_append, rulesOf]
    split <;> simp only [Traced.result_bind, ih]

theorem resultOf_of_change {style style' : Element} (change : StyleChange style style') :
    resultOf style' = resultOf style := by
  cases change with
  | text style other => rfl
  | attributes style others name =>
    rw [resultOf, resultOf, Element.attributeText?, Element.attributeText?, Element.attribute?,
      name]
  | other style child before after foreign =>
    have rules : (rulesOf 0 (before ++ after)).result =
        (rulesOf 0 (before ++ child :: after)).result := by
      rw [← result_rulesOf_filter, ← result_rulesOf_filter 0 (before ++ child :: after)]
      simp [List.filter_append, foreign]
    simp only [resultOf, rules]
    rfl
  | rule style before after name change =>
    simp only [resultOf, result_rulesOf_congr (Rule.alike_of_change change) name]
    rfl

theorem name_eq_of_change {style style' : Element} (change : StyleChange style style') :
    style'.name = style.name := by
  cases change <;> rfl

/-- Maps are read alike if their first styles are. -/
theorem result_ofElement_congr_map {root root' : Element} (map : root.name = mapTag)
    (map' : root'.name = mapTag) (same : (root'.firstChild? styleTag).map resultOf =
      (root.firstChild? styleTag).map resultOf) :
    (ofElement root).result = (ofElement root').result := by
  rw [result_ofElement_of_map map, result_ofElement_of_map map', same]

theorem result_ofElement_congr_style {root root' : Element} (style : root.name = styleTag)
    (style' : root'.name = styleTag) (same : resultOf root' = resultOf root) :
    (ofElement root).result = (ofElement root').result := by
  rw [result_ofElement_of_style style, result_ofElement_of_style style', same]

theorem result_ofElement_congr_other {root root' : Element} (map : root.name ≠ mapTag)
    (style : root.name ≠ styleTag) (name : root'.name = root.name) :
    (ofElement root).result = (ofElement root').result := by
  rw [result_ofElement_of_other map style,
    result_ofElement_of_other (name ▸ map) (name ▸ style), name]

/-- A change in the tree does not change what is read, be it a style or a problem. -/
theorem result_ofElement_of_change {root root' : Element} (change : Change root root') :
    (ofElement root).result = (ofElement root').result := by
  cases change with
  | text root other =>
    by_cases map : root.name = mapTag
    · exact result_ofElement_congr_map map map rfl
    · by_cases style : root.name = styleTag
      · exact result_ofElement_congr_style style style rfl
      · exact result_ofElement_congr_other map style rfl
  | attributes root others map => exact result_ofElement_congr_map map map rfl
  | other root child before after map foreign =>
    have kept : (before ++ child :: after).find? (fun item => item.name = styleTag) =
        (before ++ after).find? fun item => item.name = styleTag :=
      find?_append_cons_of_spare (by simpa using foreign)
    exact result_ofElement_congr_map map map (by simp only [Element.firstChild?, kept])
  | inMap root before after map name change =>
    have same := name_eq_of_change change
    refine result_ofElement_congr_map map map ?_
    exact map_find?_append_cons (by rw [same]) fun _ => resultOf_of_change change
  | style name change =>
    have same := name_eq_of_change change
    exact result_ofElement_congr_style name (same.trans name) (resultOf_of_change change)
  | wrapped style name =>
    rw [result_ofElement_of_style name, result_ofElement_of_map rfl]
    simp [Element.firstChild?, name]

/-- Trees that differ only in what the reader passes over are read as the same style, or given up
for the same problem in the same rule and symbolizer. -/
theorem result_ofElement_of_changes {root root' : Element}
    (changes : Relation.EqvGen Change root root') :
    (ofElement root).result = (ofElement root').result := by
  induction changes with
  | rel root root' change => exact result_ofElement_of_change change
  | refl root => rfl
  | symm root root' _ same => exact same.symm
  | trans first second third _ _ same same' => exact same.trans same'

/-! ## A native stylesheet -/

/-- The attributes of an element with a name. -/
def namedAttributes (name : String) : Attributes := .ofList [(nameAttribute, .text name)]

def lineOf (width : String) : Element :=
  { drawing .line with attributes := .ofList [("stroke-width", .text width)] }

def filterOf (text : String) : Element := { name := filterTag, text := some text }

/-- A rule whose second line has no width. -/
def thinPaths (attributes : Attributes) (conditions others : List Element) : Element where
  name := ruleTag
  attributes := attributes
  children := lineOf "1" :: conditions ++ lineOf "thin" :: others

def tracks (foreign : List Element) (paths : Element) : Element where
  name := styleTag
  attributes := namedAttributes "tracks"
  children := { name := ruleTag, children := [lineOf "2"] } :: foreign ++ [paths]

/-- A style with nothing to spare. -/
def plainTracks : Element :=
  tracks [] (thinPaths
    ((namedAttributes "paths").insert filterAttribute (.text "[class] == 'path'")) [] [])

/-- The same in a map, with a layer, a comment and a second filter. -/
def nativeTracks : Element where
  name := mapTag
  text := some "tracks and paths"
  children := [{ name := "Layer" }, tracks [{ name := "Comment" }]
    (thinPaths (namedAttributes "paths") [filterOf "[class] == 'path'"] [filterOf "[class"])]

theorem result_ofElement_nativeTracks :
    Relation.EqvGen Change nativeTracks plainTracks ∧
      (ofElement nativeTracks).result = (ofElement plainTracks).result ∧
      (ofElement nativeTracks).result = .error (.inRule 1 (some "paths") (.inSymbolizer 1
        "LineSymbolizer" (.invalidAttribute "LineSymbolizer" "stroke-width" "thin"))) := by
  let wide : Element := { name := ruleTag, children := [lineOf "2"] }
  let comment : Element := { name := "Comment" }
  let filter : Element := filterOf "[class] == 'path'"
  let twice : Element := thinPaths (namedAttributes "paths") [filter] [filterOf "[class"]
  let once : Element := thinPaths (namedAttributes "paths") [filter] []
  let never : Element :=
    thinPaths ((namedAttributes "paths").insert filterAttribute (.text "[class] == 'path'")) [] []
  let mapOf (style : Element) : Element := { name := mapTag, children := [style] }
  have inStyle {rule rule' : Element} (name : rule.name = ruleTag)
      (change : RuleChange rule rule') :
      Change (mapOf (tracks [] rule)) (mapOf (tracks [] rule')) :=
    .inMap (mapOf wide) [] [] rfl rfl (.rule (tracks [] rule) [wide] [] name change)
  have untold : Change nativeTracks { nativeTracks with text := none } := .text nativeTracks none
  have layer : Change { nativeTracks with text := none } (mapOf (tracks [comment] twice)) :=
    .other (mapOf wide) { name := "Layer" } [] [tracks [comment] twice] rfl
      fun same => absurd same (by decide)
  have remark : Change (mapOf (tracks [comment] twice)) (mapOf (tracks [] twice)) :=
    .inMap (mapOf wide) [] [] rfl rfl (.other (tracks [] twice) comment [wide] [twice] (by decide))
  have second : Change (mapOf (tracks [] twice)) (mapOf (tracks [] once)) :=
    inStyle rfl (.repeated twice (filterOf "[class") [lineOf "1", filter, lineOf "thin"] []
      (by decide) ⟨filter, by simp, rfl⟩)
  have moved : Change (mapOf (tracks [] once)) (mapOf plainTracks) :=
    inStyle rfl (.filter once filter (.text "[class] == 'path'") [lineOf "1"] [lineOf "thin"]
      rfl rfl (by decide))
  have wrapped : Change plainTracks (mapOf plainTracks) := .wrapped plainTracks rfl
  have changes : Relation.EqvGen Change nativeTracks plainTracks :=
    .trans _ _ _ (.rel _ _ untold) (.trans _ _ _ (.rel _ _ layer) (.trans _ _ _ (.rel _ _ remark)
      (.trans _ _ _ (.rel _ _ second) (.trans _ _ _ (.rel _ _ moved)
        (.symm _ _ (.rel _ _ wrapped))))))
  have same := result_ofElement_of_changes changes
  have refused : (match (ofElement plainTracks).result with
      | .ok _ => none
      | .error problem => some problem) = some (.inRule 1 (some "paths") (.inSymbolizer 1
        "LineSymbolizer" (.invalidAttribute "LineSymbolizer" "stroke-width" "thin"))) := by
    decide +kernel
  refine ⟨changes, same, same.trans ?_⟩
  split at refused
  · cases refused
  · rename_i problem read
    rw [read, Option.some.inj refused]

end Style

end CartoStyle
