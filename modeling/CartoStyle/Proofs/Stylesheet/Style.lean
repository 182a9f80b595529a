import CartoStyle.Proofs.Stylesheet.Rule
import CartoStyle.Stylesheet.Document

/-!
# Styles read back

A style is read back rule by rule (`Style.returned`), with or without a map around it. It is read
back so, exactly if all its rules are sound (`Style.result_ofElement`, `Style.isSound_of_read`), and
what has been read back can be written again and is read back as it is (`Style.returned_returned`).
-/

namespace CartoStyle.Style

open Stylesheet
open Xml (AttrValue Element)

variable {way : Carriage} {options : Options} {arrive : Element → Element} {glyphs : Glyphs}

/-! ## The element of a style -/

/-- The element of a style with given rules. -/
def elementWith (style : Style) (children : List Element) : Element where
  name := styleTag
  attributes := if style.name = "" then .empty
    else Dictionary.empty.insert nameAttribute (.text style.name)
  children

/-- The root of a stylesheet around the element of a style. -/
def root (options : Options) (inner : Element) : Element :=
  if options.includeMapContainer then { name := mapTag, children := [inner] } else inner

theorem result_element (options : Options) (style : Style) : (style.element options).result =
    (ruleElements options.glyphs 0 style.rules).map fun children =>
      options.overlay (root options (style.elementWith children)) := by
  simp only [element, Traced.result_bind, Traced.result_ofExcept, styleElement]
  cases ruleElements options.glyphs 0 style.rules <;> rfl

theorem result_toXml (options : Options) (style : Style) : (style.toXml options).result =
    (ruleElements options.glyphs 0 style.rules).map fun children =>
      (options.overlay (root options (style.elementWith children))).document := by
  simp only [toXml, Traced.result_bind, result_element]
  cases ruleElements options.glyphs 0 style.rules <;> rfl

theorem ruleElements_cons_eq_ok {index : Nat} {rule : Rule} {others : List Rule}
    {elements : List Element} (built : ruleElements glyphs index (rule :: others) = .ok elements) :
    ∃ first rest, rule.element glyphs = .ok first ∧
      ruleElements glyphs (index + 1) others = .ok rest ∧ first :: rest = elements := by
  obtain ⟨first, here, more⟩ := bind_eq_ok_iff.mp built
  obtain ⟨rest, there, same⟩ := bind_eq_ok_iff.mp more
  exact ⟨first, rest, mapError_eq_ok_iff.mp here, there, Except.ok.inj same⟩

/-- Rules are written if each of them is. -/
theorem exists_ruleElements_iff {index : Nat} {rules : List Rule} :
    (∃ elements, ruleElements glyphs index rules = .ok elements) ↔
      ∀ rule ∈ rules, ∃ element, rule.element glyphs = .ok element := by
  induction rules generalizing index with
  | nil => simp [ruleElements]
  | cons rule others ih =>
    rw [List.forall_mem_cons, ← @ih (index + 1)]
    constructor
    · rintro ⟨elements, built⟩
      obtain ⟨first, rest, here, there, -⟩ := ruleElements_cons_eq_ok built
      exact ⟨⟨first, here⟩, rest, there⟩
    · rintro ⟨⟨first, here⟩, rest, there⟩
      exact ⟨first :: rest, by rw [ruleElements, here, there]; rfl⟩

/-- Every element of a rule is that of one of the rules. -/
theorem exists_of_mem_ruleElements {index : Nat} {rules : List Rule} {elements : List Element}
    (built : ruleElements glyphs index rules = .ok elements) {element : Element}
    (member : element ∈ elements) : ∃ rule ∈ rules, rule.element glyphs = .ok element := by
  induction rules generalizing index elements with
  | nil =>
    cases built
    cases member
  | cons rule others ih =>
    obtain ⟨first, rest, here, there, rfl⟩ := ruleElements_cons_eq_ok built
    rcases List.mem_cons.mp member with rfl | later
    · exact ⟨rule, List.mem_cons_self .., here⟩
    · obtain ⟨other, present, own⟩ := ih there later
      exact ⟨other, List.mem_cons_of_mem _ present, own⟩

/-- Each rule has its element in its place. -/
theorem exists_getElem?_ruleElements {start : Nat} {rules : List Rule} {elements : List Element}
    (built : ruleElements glyphs start rules = .ok elements) {index : Nat} {rule : Rule}
    (place : rules[index]? = some rule) :
    ∃ element, elements[index]? = some element ∧ rule.element glyphs = .ok element := by
  induction rules generalizing start elements index with
  | nil => cases place
  | cons first others ih =>
    obtain ⟨front, rest, here, there, rfl⟩ := ruleElements_cons_eq_ok built
    cases index with
    | zero =>
      obtain rfl := Option.some.inj place
      exact ⟨front, rfl, here⟩
    | succ index => exact ih there place

/-! ## Reading rules -/

/-- A style as it is read back. -/
def returned (way : Carriage) (style : Style) : Style where
  name := way.settled style.name
  rules := style.rules.map (Rule.returned way)

/-- A style whose rules can be read where they arrive. -/
def isSound (way : Carriage) (style : Style) : Bool := style.rules.all (Rule.isSound way)

/-- Finite numbers in filters, in lists and in rotations, and no bracket in the name of a property.
-/
def isRegular (style : Style) : Bool := style.rules.all Rule.isRegular

theorem rulesOf_cons {element : Element} (name : element.name = ruleTag) (index : Nat)
    (others : List Element) : (rulesOf index (element :: others)).result = do
      let rule ← ((Rule.ofElement element).result).mapError
        (.inRule index (element.attributeText? nameAttribute))
      let rules ← (rulesOf (index + 1) others).result
      return rule :: rules := by
  rw [rulesOf, if_pos name]
  simp only [Traced.result_bind, Traced.result_mapProblem, Traced.result_pure]
  rfl

section Rules

variable (arrival : way.Arrival options arrive) {start : Nat} {rules : List Rule}
  {elements : List Element} (built : ruleElements glyphs start rules = .ok elements)
  (left : ∀ rule ∈ elements, ∀ child ∈ rule.children, options.leaves child)

include arrival built left

/-- Sound rules are read back. -/
theorem result_rulesOf (sound : ∀ rule ∈ rules, rule.isSound way) (index : Nat) :
    (rulesOf index (elements.map arrive)).result = .ok (rules.map (Rule.returned way)) := by
  induction rules generalizing start elements index with
  | nil =>
    cases built
    rfl
  | cons rule others ih =>
    obtain ⟨first, rest, here, there, rfl⟩ := ruleElements_cons_eq_ok built
    have one := Rule.result_ofElement arrival here (left first (List.mem_cons_self ..))
      (sound rule (List.mem_cons_self ..))
    have more := ih there (fun other member => left other (List.mem_cons_of_mem _ member))
      (fun other member => sound other (List.mem_cons_of_mem _ member)) (index + 1)
    have name : (arrive first).name = ruleTag := by
      obtain ⟨text, drawings, -, -, rfl⟩ := Rule.element_cases here
      exact arrival.name_eq _
    rw [List.map_cons, rulesOf_cons name, one, more]
    rfl

/-- Rules that are read back were sound if their names and numbers are regular. -/
theorem isSound_of_rulesOf (regular : ∀ rule ∈ rules, rule.isRegular) {index : Nat}
    {read : List Rule}
    (done : (rulesOf index (elements.map arrive)).result = .ok read) :
    ∀ rule ∈ rules, rule.isSound way := by
  induction rules generalizing start elements index read with
  | nil => exact fun _ member => nomatch member
  | cons rule others ih =>
    obtain ⟨first, rest, here, there, rfl⟩ := ruleElements_cons_eq_ok built
    have name : (arrive first).name = ruleTag := by
      obtain ⟨text, drawings, -, -, rfl⟩ := Rule.element_cases here
      exact arrival.name_eq _
    rw [List.map_cons, rulesOf_cons name] at done
    obtain ⟨one, front, more⟩ := bind_eq_ok_iff.mp done
    obtain ⟨two, back, -⟩ := bind_eq_ok_iff.mp more
    rw [List.forall_mem_cons]
    constructor
    · exact Rule.isSound_of_read arrival here (left first (List.mem_cons_self ..))
        (regular rule (List.mem_cons_self ..)) (mapError_eq_ok_iff.mp front)
    · exact ih there (fun other member => left other (List.mem_cons_of_mem _ member))
        (fun other member => regular other (List.mem_cons_of_mem _ member)) back

end Rules

/-! ## Reading a style -/

/-- The name of a style is not taken from the options. -/
def keepsName (options : Options) (style : Style) : Bool :=
  style.name != "" || (options.styleOptions.get? nameAttribute).isNone

/-- The reader finds the style in a stylesheet. -/
theorem result_find_root (arrival : way.Arrival options arrive) (style : Style)
    (children : List Element) :
    (find (arrive (root options (style.elementWith children)))).result =
      .ok (arrive (style.elementWith children)) := by
  rw [root]
  split
  · have name := arrival.name_eq { name := mapTag, children := [style.elementWith children] }
    have named : (arrive { name := mapTag, children := [style.elementWith children] }).childrenNamed
        styleTag = [arrive (style.elementWith children)] := by
      rw [arrival.childrenNamed_eq]
      rfl
    rw [find, if_pos name, named]
    rfl
  · have name : (arrive (style.elementWith children)).name = styleTag := arrival.name_eq _
    rw [find, name, if_neg (by decide), if_pos rfl]
    rfl

theorem attributeText?_name_arrive (arrival : way.Arrival options arrive) {style : Style}
    (kept : style.keepsName options) (children : List Element) :
    ((arrive (style.elementWith children)).attributeText? nameAttribute).getD "" =
      way.settled style.name := by
  have configured : options.configured styleTag = options.styleOptions := rfl
  by_cases unnamed : style.name = ""
  · have has : (style.elementWith children).attribute? nameAttribute =
        (none : Option String).map .text := by
      rw [Element.attribute?, elementWith, if_pos unnamed]
      rfl
    have absent : (options.configured styleTag).get? nameAttribute = none := by
      simpa [keepsName, unnamed, configured] using kept
    rw [arrival.attributeText?_eq has (.inr absent), unnamed,
      way.settled_of_isVisible (by simp)]
    rfl
  · have has : (style.elementWith children).attribute? nameAttribute =
        (some style.name).map .text := by
      rw [Element.attribute?, elementWith, if_neg unnamed]
      exact Dictionary.get?_insert_self _ _ _
    rw [arrival.attributeText?_eq has (.inl rfl)]
    rfl

/-- What the reader makes of a stylesheet. -/
theorem result_ofElement_root (arrival : way.Arrival options arrive) {style : Style}
    (kept : style.keepsName options) (children : List Element) :
    (ofElement (arrive (root options (style.elementWith children)))).result =
      (rulesOf 0 (children.map arrive)).result.map fun rules =>
        { name := way.settled style.name, rules } := by
  have inner : (arrive (style.elementWith children)).children = children.map arrive :=
    arrival.children_eq _
  simp only [ofElement, Traced.result_bind, result_find_root arrival, ok_bind, inner,
    attributeText?_name_arrive arrival kept, Traced.result_note, Traced.result_pure]
  cases (rulesOf 0 (children.map arrive)).result <;> rfl

/-! ## Writing again what has been read back -/

@[simp] theorem returned_returned (style : Style) :
    (style.returned way).returned way = style.returned way := by
  simp [returned]

theorem isSound_returned {style : Style} (sound : style.isSound way) :
    (style.returned way).isSound way := by
  apply List.all_eq_true.mpr
  intro left member
  obtain ⟨rule, present, rfl⟩ := List.mem_map.mp member
  exact Rule.isSound_returned (List.all_eq_true.mp sound rule present)

/-- A style that has been read back can be written. -/
theorem exists_ruleElements_returned {style : Style} {elements : List Element}
    (built : ruleElements glyphs 0 style.rules = .ok elements) :
    ∃ elements, ruleElements glyphs 0 (style.returned way).rules = .ok elements := by
  apply exists_ruleElements_iff.mpr
  intro left member
  obtain ⟨rule, present, rfl⟩ := List.mem_map.mp member
  obtain ⟨element, before⟩ := exists_ruleElements_iff.mp ⟨elements, built⟩ rule present
  exact Rule.exists_element_returned before

end CartoStyle.Style
