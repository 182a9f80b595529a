import CartoStyle.Proofs.FirstFault
import CartoStyle.Proofs.Stylesheet.Style

/-!
# What keeps a stylesheet from being read

The reader gives up at the first fault. Within an element that draws it goes by the table of its
fields, whatever the order of the attributes; within a rule it reads the filter, then what draws,
then the bounds; within a style it goes rule by rule. Each fault is said of the elements alone, and
the problem of a reader is the first one.
-/

namespace CartoStyle

open Stylesheet
open Xml (AttrValue Element)

/-! ## Tables -/

namespace Stylesheet.AttrField

variable {σ α : Type}

/-- No record can take in a value. -/
def Rejects (field : AttrField σ) (value : AttrValue) : Prop :=
  ∀ record, field.read value record = none

/-- Whether a value can be interpreted does not depend on the record. -/
def IsUniform (field : AttrField σ) : Prop :=
  ∀ value record, field.read value record = none → field.Rejects value

@[simp] theorem isUniform_of (name : String) (form : AttrForm α) (get : σ → Option α)
    (set : α → σ → σ) : (of name form get set).IsUniform := by
  intro value record rejected other
  simpa [of] using rejected

/-- The attribute of a field has a value that cannot be interpreted. -/
def Fault (element : Element) (field : AttrField σ) (problem : Problem) : Prop :=
  ∃ value, element.attribute? field.attributeName = some value ∧ field.Rejects value ∧
    problem = invalid element field.attributeName value

/-- The first field of a table with such an attribute. -/
def TableFault (table : List (AttrField σ)) (element : Element) (problem : Problem) : Prop :=
  ∃ place field, FirstFault (Fault element) table place field problem

theorem tableFault_cons_iff {field : AttrField σ} {table : List (AttrField σ)} {element : Element}
    {problem : Problem} : TableFault (field :: table) element problem ↔
      Fault element field problem ∨
        (∀ other, ¬Fault element field other) ∧ TableFault table element problem := by
  simp only [TableFault, firstFault_cons_iff]
  constructor
  · rintro ⟨place, other, ⟨rfl, rfl, here⟩ | ⟨next, rfl, sound, later⟩⟩
    · exact .inl here
    · exact .inr ⟨sound, next, other, later⟩
  · rintro (here | ⟨sound, next, other, later⟩)
    · exact ⟨0, field, .inl ⟨rfl, rfl, here⟩⟩
    · exact ⟨next + 1, other, .inr ⟨next, rfl, sound, later⟩⟩

/-- A table is given up at its first field with a value that cannot be interpreted. -/
theorem readAll_eq_error_iff {element : Element} {table : List (AttrField σ)}
    (uniform : ∀ field ∈ table, field.IsUniform) {record : σ} {problem : Problem} :
    readAll element table record = .error problem ↔ TableFault table element problem := by
  induction table generalizing record with
  | nil => simp [readAll, TableFault, not_firstFault_nil]
  | cons field table ih =>
    obtain ⟨here, there⟩ := List.forall_mem_cons.mp uniform
    rw [readAll, tableFault_cons_iff]
    cases found : element.attribute? field.attributeName with
    | none => simp [Fault, found, ih there]
    | some value =>
      cases said : field.read value record with
      | none => simp [Fault, found, said, here value record said, eq_comm]
      | some next =>
        have taken : ¬field.Rejects value := fun rejected => by simp [rejected record] at said
        simp [Fault, found, said, taken, ih there]

end Stylesheet.AttrField

/-! ## Elements that draw -/

open AttrField (TableFault readAll_eq_error_iff)

variable {element : Element} {problem : Problem}

theorem Fill.result_ofElement_eq_error_iff :
    (ofElement element).result = .error problem ↔ TableFault table element problem := by
  rw [← readAll_eq_error_iff (by simp [table]), ofElement, Traced.result_bind]
  exact bind_eq_error_iff_of_exists_ok fun area => ⟨_, rfl⟩

theorem Line.result_ofElement_eq_error_iff :
    (ofElement element).result = .error problem ↔ TableFault table element problem := by
  rw [← readAll_eq_error_iff (by simp [table]), ofElement, Traced.result_bind]
  exact bind_eq_error_iff_of_exists_ok fun stroke => ⟨_, rfl⟩

theorem Stylesheet.result_markerOfElement_eq_error_iff :
    (markerOfElement element).result = .error problem ↔
      if drawsIcon element then TableFault Icon.table element problem
      else TableFault Mark.table element problem := by
  rw [markerOfElement]
  split
  · rw [← readAll_eq_error_iff (by simp [Icon.table]), Traced.result_bind]
    exact bind_eq_error_iff_of_exists_ok fun image => ⟨_, rfl⟩
  · rw [← readAll_eq_error_iff (by simp [Mark.table]), Traced.result_bind]
    exact bind_eq_error_iff_of_exists_ok fun symbol => ⟨_, rfl⟩

theorem Raster.result_ofElement_eq_error_iff :
    (ofElement element).result = .error problem ↔ TableFault table element problem := by
  rw [← readAll_eq_error_iff (by simp [table]), ofElement, Traced.result_bind]
  exact bind_eq_error_iff_of_exists_ok fun cover => ⟨_, rfl⟩

namespace Label

theorem result_ofElement_eq_error_iff :
    (ofElement element).result = .error problem ↔ TableFault table element problem := by
  obtain ⟨anchor, placed⟩ := exists_result_anchorOf element
  rw [result_ofElement, ← readAll_eq_error_iff (by simp [table, companion])]
  refine bind_eq_error_iff_of_exists_ok fun label => ?_
  rw [placed]
  exact ⟨_, rfl⟩

end Label

namespace Symbolizer

/-- What keeps an element from being read as a symbolizer: it is none of those that draw, or an
attribute in the table of its kind cannot be interpreted. -/
def ReadFault (element : Element) (problem : Problem) : Prop :=
  match (Vocabulary.ofKeyword? element.name : Option DrawingTag) with
  | none => problem = .unrecognizedElement element.name
  | some .polygon | some .polygonPattern => TableFault Fill.table element problem
  | some .line | some .linePattern => TableFault Line.table element problem
  | some .markers =>
    if drawsIcon element then TableFault Icon.table element problem
    else TableFault Mark.table element problem
  | some .raster => TableFault Raster.table element problem
  | some .text => TableFault Label.table element problem

theorem result_ofElement_eq_error_iff :
    (ofElement element).result = .error problem ↔ ReadFault element problem := by
  have wrapped {α : Type} (read : Traced α) (wrap : α → Symbolizer) :
      (do return wrap (← read) : Traced Symbolizer).result = .error problem ↔
        read.result = .error problem := by
    rw [Traced.result_bind]
    exact bind_eq_error_iff_of_exists_ok fun value => ⟨_, rfl⟩
  rw [ofElement, ReadFault]
  cases (Vocabulary.ofKeyword? element.name : Option DrawingTag) with
  | none => simp [eq_comm]
  | some tag =>
    cases tag with
    | polygon | polygonPattern =>
      exact (wrapped _ _).trans Fill.result_ofElement_eq_error_iff
    | line | linePattern => exact (wrapped _ _).trans Line.result_ofElement_eq_error_iff
    | markers => exact result_markerOfElement_eq_error_iff
    | raster => exact (wrapped _ _).trans Raster.result_ofElement_eq_error_iff
    | text => exact (wrapped _ _).trans Label.result_ofElement_eq_error_iff

end Symbolizer

/-! ## Rules -/

namespace Rule

/-- The filter of a rule is a text that no filter expresses; a blank one is none. -/
def FilterFault (rule : Element) (problem : Problem) : Prop :=
  ∃ text cause, filterText? rule = some text ∧ Text.trimmed text ≠ "" ∧
    Expression.parse (Text.trimmed text) = .error cause ∧ problem = .filter cause

/-- The children of a rule that must draw. -/
def drawingChildren (rule : Element) : List Element :=
  rule.children.filter fun child => !conditionTags.contains child.name

/-- A child of a rule cannot be read as a symbolizer. -/
def DrawingFault (rule : Element) (problem : Problem) : Prop :=
  ∃ place child cause, FirstFault Symbolizer.ReadFault (drawingChildren rule) place child cause ∧
    problem = .inSymbolizer place child.name cause

/-- The first child of a name is no number, blanks around it apart. -/
def BoundFault (tag : String) (rule : Element) (problem : Problem) : Prop :=
  ∃ child, rule.firstChild? tag = some child ∧
    numberOfText? (Text.trim (child.text.getD "").toList) = none ∧
      problem = .invalidScale tag (child.text.getD "")

/-- What keeps an element from being read as a rule: the first of its parts with a fault, in the
order in which they are read. -/
def ReadFault (rule : Element) (problem : Problem) : Prop :=
  ∃ place fault, FirstFault id
    [FilterFault rule, DrawingFault rule, BoundFault minScaleTag rule, BoundFault maxScaleTag rule]
    place fault problem

theorem filterOfText_eq_error_iff {text : String} : filterOfText text = .error problem ↔
    ∃ cause, Text.trimmed text ≠ "" ∧ Expression.parse (Text.trimmed text) = .error cause ∧
      problem = .filter cause := by
  rw [filterOfText]
  by_cases blank : Text.trimmed text = ""
  · simp [blank]
  · cases Expression.parse (Text.trimmed text) <;> simp [blank, eq_comm (a := problem)]

theorem filter_eq_error_iff {rule : Element} : (match filterText? rule with
    | some text => filterOfText text
    | none => .ok none) = .error problem ↔ FilterFault rule problem := by
  rw [FilterFault]
  cases filterText? rule with
  | none => simp
  | some text =>
    refine filterOfText_eq_error_iff.trans ⟨?_, ?_⟩
    · rintro ⟨cause, fault⟩
      exact ⟨text, cause, rfl, fault⟩
    · rintro ⟨_, cause, ⟨⟩, fault⟩
      exact ⟨cause, fault⟩

theorem result_ofElements_eq_error_iff {rule : Element} :
    (Symbolizer.ofElements (drawingChildren rule)).result = .error problem ↔
      DrawingFault rule problem := by
  have loop : (Symbolizer.ofElementsFrom 0 (drawingChildren rule)).result = .error problem ↔ _ :=
    eq_error_iff_firstFault
      (fun index elements => (Symbolizer.ofElementsFrom index elements).result)
      (fun element => (Symbolizer.ofElement element).result)
      (fun index element => .inSymbolizer index element.name) (· :: ·)
      (fun _ => ⟨[], rfl⟩) fun element _ index others => by
        simp only [Symbolizer.ofElementsFrom, Traced.result_bind, Traced.result_mapProblem,
          Traced.result_pure]
        rfl
  simp only [Nat.zero_add, firstFault_congr fun _ _ => Symbolizer.result_ofElement_eq_error_iff]
    at loop
  exact loop

theorem boundOf_eq_error_iff {rule : Element} {tag : String} :
    ScaleRange.boundOf rule tag = .error problem ↔ BoundFault tag rule problem := by
  rw [ScaleRange.boundOf, BoundFault]
  cases rule.firstChild? tag with
  | none => simp
  | some child =>
    cases read : numberOfText? (Text.trim (child.text.getD "").toList) <;> simp [read, eq_comm]

theorem ofRule_eq_error_iff {rule : Element} :
    ScaleRange.ofRule rule = .error problem ↔ ∃ place fault,
      FirstFault id [BoundFault minScaleTag rule, BoundFault maxScaleTag rule]
        place fault problem := by
  refine bind_eq_error_iff_firstFault (fun _ => boundOf_eq_error_iff) fun min problem => ?_
  refine bind_eq_error_iff_firstFault (fun _ => boundOf_eq_error_iff) fun max problem => ?_
  simp [not_firstFault_nil, pure, Except.pure]

theorem result_ofElement_eq_error_iff {rule : Element} :
    (ofElement rule).result = .error problem ↔ ReadFault rule problem := by
  rw [result_ofElement_eq]
  refine bind_eq_error_iff_firstFault (fun _ => filter_eq_error_iff) fun filter problem => ?_
  refine bind_eq_error_iff_firstFault (fun _ => result_ofElements_eq_error_iff)
    fun symbolizers problem => ?_
  rw [← ofRule_eq_error_iff]
  exact bind_eq_error_iff_of_exists_ok fun range => ⟨_, rfl⟩

end Rule

/-! ## Styles -/

namespace Style

/-- The element of the style that a root is, or the first one that a map holds. -/
def styleOf? (root : Element) : Option Element :=
  if root.name = mapTag then root.firstChild? styleTag
  else if root.name = styleTag then some root
  else none

/-- What keeps a root from being read as a style: it is of no use, it is a map without a style, or
a rule of the style cannot be read. -/
inductive ReadFault (root : Element) : Problem → Prop where
  | unrecognized (map : root.name ≠ mapTag) (style : root.name ≠ styleTag) :
      ReadFault root (.unrecognizedElement root.name)
  | missing (map : root.name = mapTag) (absent : ∀ child ∈ root.children, child.name ≠ styleTag) :
      ReadFault root (.missingElement styleTag)
  | rule {style rule : Element} {place : Nat} {cause : Problem} (found : styleOf? root = some style)
      (first : FirstFault Rule.ReadFault (style.childrenNamed ruleTag) place rule cause) :
      ReadFault root (.inRule place (rule.attributeText? nameAttribute) cause)

theorem result_find (root : Element) : (find root).result =
    (styleOf? root).elim (if root.name = mapTag then .error (.missingElement styleTag)
      else .error (.unrecognizedElement root.name)) .ok := by
  rw [find, styleOf?, Element.firstChild?_eq_head?]
  split
  · rcases root.childrenNamed styleTag with _ | ⟨first, _ | ⟨second, others⟩⟩ <;> rfl
  · split <;> rfl

/-- Children that are no rules have no part in the reading of rules. -/
theorem result_rulesOf_filter (index : Nat) (children : List Element) :
    (rulesOf index (children.filter fun child => child.name = ruleTag)).result =
      (rulesOf index children).result := by
  induction children generalizing index with
  | nil => rfl
  | cons child others ih =>
    by_cases name : child.name = ruleTag
    · rw [List.filter_cons_of_pos (by simpa using name), rulesOf_cons name, rulesOf_cons name, ih]
    · rw [List.filter_cons_of_neg (by simpa using name), ih, rulesOf, if_neg name]
      rfl

theorem result_rulesOf_eq_error_iff {style : Element} :
    (rulesOf 0 style.children).result = .error problem ↔ ∃ place rule cause,
      FirstFault Rule.ReadFault (style.childrenNamed ruleTag) place rule cause ∧
        problem = .inRule place (rule.attributeText? nameAttribute) cause := by
  rw [← result_rulesOf_filter]
  have loop : (rulesOf 0 (style.childrenNamed ruleTag)).result = .error problem ↔ _ :=
    eq_error_iff_firstFault (fun index rules => (rulesOf index rules).result)
      (fun rule => (Rule.ofElement rule).result)
      (fun index rule => .inRule index (rule.attributeText? nameAttribute)) (· :: ·)
      (fun _ => ⟨[], rfl⟩) fun rule member index others =>
        rulesOf_cons (by simpa using (List.mem_filter.mp member).2) index others
  simp only [Nat.zero_add, firstFault_congr fun _ _ => Rule.result_ofElement_eq_error_iff] at loop
  exact loop

theorem styleOf?_eq_none_iff {root : Element} : styleOf? root = none ↔
    (root.name ≠ mapTag ∧ root.name ≠ styleTag) ∨
      (root.name = mapTag ∧ ∀ child ∈ root.children, child.name ≠ styleTag) := by
  rw [styleOf?]
  by_cases map : root.name = mapTag
  · simp [map, Element.firstChild?]
  · by_cases style : root.name = styleTag
    · simp [style, show styleTag ≠ mapTag by decide]
    · simp [map, style]

theorem result_ofElement_eq_error_iff {root : Element} :
    (ofElement root).result = .error problem ↔ ReadFault root problem := by
  rw [ofElement, Traced.result_bind, result_find]
  cases found : styleOf? root with
  | none =>
    rcases styleOf?_eq_none_iff.mp found with ⟨map, style⟩ | ⟨map, absent⟩
    · rw [Option.elim_none, if_neg map]
      constructor
      · rintro ⟨⟩
        exact .unrecognized map style
      · rintro (_ | ⟨same, -⟩ | ⟨other, -⟩)
        · rfl
        · exact absurd same map
        · rw [found] at other
          cases other
    · rw [Option.elim_none, if_pos map]
      constructor
      · rintro ⟨⟩
        exact .missing map absent
      · rintro (⟨other, -⟩ | _ | ⟨other, -⟩)
        · exact absurd map other
        · rfl
        · rw [found] at other
          cases other
  | some style =>
    have sure := styleOf?_eq_none_iff.not.mp (found ▸ Option.some_ne_none style)
    rw [Option.elim_some, ok_bind, Traced.result_bind]
    refine ((bind_eq_error_iff_of_exists_ok fun rules => ⟨_, rfl⟩).trans
      result_rulesOf_eq_error_iff).trans ⟨?_, ?_⟩
    · rintro ⟨place, rule, cause, first, rfl⟩
      exact .rule found first
    · rintro (⟨map, style⟩ | ⟨map, absent⟩ | ⟨same, first⟩)
      · exact absurd (.inl ⟨map, style⟩) sure
      · exact absurd (.inr ⟨map, absent⟩) sure
      · cases found.symm.trans same
        exact ⟨_, _, _, first, rfl⟩

theorem exists_readFault_iff {root : Element} : (∃ problem, ReadFault root problem) ↔
    styleOf? root = none ∨ ∃ style ∈ styleOf? root, ∃ rule ∈ style.childrenNamed ruleTag,
      ∃ cause, Rule.ReadFault rule cause := by
  constructor
  · rintro ⟨_, ⟨map, style⟩ | ⟨map, absent⟩ | ⟨found, first⟩⟩
    · exact .inl (styleOf?_eq_none_iff.mpr (.inl ⟨map, style⟩))
    · exact .inl (styleOf?_eq_none_iff.mpr (.inr ⟨map, absent⟩))
    · exact .inr ⟨_, found, exists_firstFault_iff.mp ⟨_, _, _, first⟩⟩
  · rintro (styleless | ⟨style, found, faulty⟩)
    · rcases styleOf?_eq_none_iff.mp styleless with ⟨map, style⟩ | ⟨map, absent⟩
      · exact ⟨_, .unrecognized map style⟩
      · exact ⟨_, .missing map absent⟩
    · obtain ⟨place, rule, cause, first⟩ := exists_firstFault_iff.mpr faulty
      exact ⟨_, .rule found first⟩

/-- Reading a stylesheet fails if its root has no style or a rule of its style cannot be read, and
the problem is that of the first such rule: that of its first part with a fault. -/
theorem ofElement_error_is_first_fault (root : Element) :
    ((∃ problem, (ofElement root).result = .error problem) ↔
      styleOf? root = none ∨ ∃ style ∈ styleOf? root, ∃ rule ∈ style.childrenNamed ruleTag,
        ∃ cause, Rule.ReadFault rule cause) ∧
    ∀ problem, (ofElement root).result = .error problem ↔ ReadFault root problem := by
  refine ⟨?_, fun problem => result_ofElement_eq_error_iff⟩
  simp only [result_ofElement_eq_error_iff]
  exact exists_readFault_iff

end Style

end CartoStyle
