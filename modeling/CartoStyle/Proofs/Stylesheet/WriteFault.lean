import CartoStyle.Proofs.FirstFault
import CartoStyle.Proofs.Stylesheet.Style

/-!
# What keeps a style from being written

A filter cannot be written if it combines fewer than two operands somewhere, and a symbolizer if it
draws a mark that has no glyph. The problem of a style is that of its first rule with one of the
two, the filter going before the symbolizers. Options have no part in it.
-/

namespace CartoStyle

open Stylesheet

/-! ## Filters -/

namespace Filter

mutual

/-- The combinations of a filter with the numbers of their operands, each before those inside it. -/
def combinations : Filter → List (CombinationOperator × Nat)
  | .comparison .. => []
  | .combination operator operands => (operator, operands.length) :: operandCombinations operands
  | .negation operand => combinations operand

/-- The combinations of some operands, one operand after another. -/
def operandCombinations : List Filter → List (CombinationOperator × Nat)
  | [] => []
  | operand :: others => combinations operand ++ operandCombinations others

end

/-- The first of some combinations with too few operands. -/
def short? (combinations : List (CombinationOperator × Nat)) : Option (CombinationOperator × Nat) :=
  combinations.find? fun combination => combination.2 < 2

theorem short?_cons_of_lt {combination : CombinationOperator × Nat} (few : combination.2 < 2)
    {others : List (CombinationOperator × Nat)} :
    short? (combination :: others) = some combination :=
  List.find?_cons_of_pos (decide_eq_true few)

theorem short?_cons_of_not_lt {combination : CombinationOperator × Nat}
    (paired : ¬combination.2 < 2) {others : List (CombinationOperator × Nat)} :
    short? (combination :: others) = short? others :=
  List.find?_cons_of_neg fun few => paired (of_decide_eq_true few)

theorem short?_append (these those : List (CombinationOperator × Nat)) :
    short? (these ++ those) = (short? these).or (short? those) :=
  List.find?_append

end Filter

namespace Expression

open CartoStyle.Filter

/-- What is wrong with a combination that is too short. -/
def arityProblem (combination : CombinationOperator × Nat) : Problem :=
  .arity combination.1 combination.2

/-- Operands are given up at the first combination that is too short if each operand is. -/
theorem operandChars_eq_error_iff {operator : CombinationOperator} {operands : List Filter}
    (each : ∀ operand ∈ operands, ∀ problem,
      chars operand = .error problem ↔
        (short? operand.combinations).map arityProblem = some problem)
    {problem : Problem} : operandChars operator operands = .error problem ↔
      (short? (operandCombinations operands)).map arityProblem = some problem := by
  induction operands with
  | nil => simp [operandChars, operandCombinations, short?]
  | cons operand others ih =>
    obtain ⟨here, there⟩ := List.forall_mem_cons.mp each
    rw [operandChars, operandCombinations, short?_append]
    cases written : chars operand with
    | error first =>
      obtain ⟨combination, found, rfl⟩ := Option.map_eq_some_iff.mp ((here first).mp written)
      simp [found]
    | ok part =>
      have sound : short? operand.combinations = none := by
        refine Option.eq_none_iff_forall_ne_some.mpr fun combination found => ?_
        exact exists_eq_ok_iff.mp ⟨part, written⟩ _ ((here _).mpr (by rw [found]; rfl))
      rw [sound, Option.none_or, ← ih there]
      cases operandChars operator others with
      | error next => simp
      | ok rest => cases rest <;> simp

/-- A filter is given up at the first combination that is too short. -/
theorem chars_eq_error_iff (filter : Filter) : ∀ problem, chars filter = .error problem ↔
    (short? filter.combinations).map arityProblem = some problem := by
  induction filter using Filter.inductionOn with
  | comparison operator property value => simp [chars, combinations, short?]
  | combination operator operands ih =>
    intro problem
    rw [chars, combinations]
    by_cases few : operands.length < 2
    · rw [if_pos few, short?_cons_of_lt few]
      simp [arityProblem]
    · rw [if_neg few, short?_cons_of_not_lt few]
      exact operandChars_eq_error_iff ih
  | negation operand ih =>
    intro problem
    rw [chars, combinations, ← ih problem]
    cases chars operand <;> simp

theorem render_eq_error_iff {filter : Filter} {problem : Problem} :
    render filter = .error problem ↔
      ∃ combination, short? filter.combinations = some combination ∧
        problem = arityProblem combination := by
  rw [render, map_eq_error_iff, chars_eq_error_iff, Option.map_eq_some_iff]
  simp only [eq_comm]

end Expression

/-! ## Symbolizers -/

/-- The name of the mark that a graphic is. -/
def Graphic.markName? : Graphic → Option String
  | .mark symbol => symbol.wellKnownName
  | .icon _ => none

theorem Graphic.path?_eq_error_iff {glyphs : Glyphs} {graphic : Option Graphic}
    {problem : Problem} : Graphic.path? glyphs graphic = .error problem ↔
      ∃ name ∈ graphic.bind markName?, glyphFile? name = none ∧
        problem = .unsupportedSymbol name := by
  match graphic with
  | none | some (.icon image) => simp [path?, file?, markName?]
  | some (.mark symbol) =>
    simp only [path?, file?, Option.bind_some, markName?]
    cases symbol.wellKnownName with
    | none => simp
    | some name => simp [map_eq_error_iff, Glyphs.resolve_eq_error_iff]

namespace Symbolizer

/-- The name of the mark whose glyph is looked up for a symbolizer. A line that is filled by a
graphic does not look at the one that would follow it. -/
def markName? : Symbolizer → Option String
  | .fill area => area.graphicFill.bind Graphic.markName?
  | .line stroke => (stroke.graphicFill.or stroke.graphicStroke).bind Graphic.markName?
  | .mark symbol => symbol.wellKnownName
  | .icon _ | .raster _ | .text _ => none

/-- What keeps a symbolizer from being written: its mark has no glyph. -/
def WriteFault (symbolizer : Symbolizer) (problem : Problem) : Prop :=
  ∃ name ∈ symbolizer.markName?, glyphFile? name = none ∧ problem = .unsupportedSymbol name

theorem elements_eq_error_iff {glyphs : Glyphs} {symbolizer : Symbolizer} {problem : Problem} :
    symbolizer.elements glyphs = .error problem ↔ symbolizer.WriteFault problem := by
  cases symbolizer with
  | fill area =>
    simp [elements, Fill.elements, Fill.polygon_eq, fmap_eq_error_iff, map_eq_error_iff,
      Graphic.path?_eq_error_iff, WriteFault, markName?]
  | line stroke =>
    simp [elements, Line.element_eq, fmap_eq_error_iff, map_eq_error_iff,
      Graphic.path?_eq_error_iff, WriteFault, markName?, Line.graphic?]
  | mark symbol =>
    -- a mark looks up its own name as a graphic does
    have own : (Graphic.mark symbol).file? glyphs = Graphic.path? glyphs (some (.mark symbol)) :=
      rfl
    simp [elements, Mark.element_eq, fmap_eq_error_iff, map_eq_error_iff, own,
      Graphic.path?_eq_error_iff, WriteFault, markName?, Graphic.markName?]
  | icon image => simp [elements, WriteFault, markName?]
  | raster cover => simp [elements, WriteFault, markName?]
  | text label => simp [elements, WriteFault, markName?]

end Symbolizer

/-! ## Rules -/

namespace Rule

/-- What keeps a rule from being written: its filter combines too few operands or, where that does
not, the mark of a symbolizer has no glyph. -/
inductive WriteFault (rule : Rule) : Problem → Prop where
  | filter {filter : Filter} {combination : CombinationOperator × Nat}
      (has : rule.filter = some filter)
      (first : Filter.short? filter.combinations = some combination) :
      WriteFault rule (.filter (.arity combination.1 combination.2))
  | symbolizer {place : Nat} {symbolizer : Symbolizer} {cause : Problem}
      (sound : ∀ filter ∈ rule.filter, Filter.short? filter.combinations = none)
      (first : FirstFault Symbolizer.WriteFault rule.symbolizers place symbolizer cause) :
      WriteFault rule (.inSymbolizer place (keyword symbolizer.kind) cause)

theorem expression_eq_error_iff {rule : Rule} {problem : Problem} :
    rule.expression = .error problem ↔ ∃ filter combination, rule.filter = some filter ∧
      Filter.short? filter.combinations = some combination ∧
        problem = .filter (.arity combination.1 combination.2) := by
  rw [expression]
  cases rule.filter with
  | none => simp
  | some filter =>
    rw [map_eq_error_iff, mapError_eq_error_iff]
    constructor
    · rintro ⟨cause, failed, rfl⟩
      obtain ⟨combination, found, rfl⟩ := Expression.render_eq_error_iff.mp failed
      exact ⟨filter, combination, rfl, found, rfl⟩
    · rintro ⟨_, combination, ⟨⟩, found, rfl⟩
      exact ⟨_, Expression.render_eq_error_iff.mpr ⟨combination, found, rfl⟩, rfl⟩

theorem exists_expression_iff {rule : Rule} :
    (∃ text, rule.expression = .ok text) ↔
      ∀ filter ∈ rule.filter, Filter.short? filter.combinations = none := by
  simp only [exists_eq_ok_iff, ne_eq, expression_eq_error_iff, Option.eq_none_iff_forall_ne_some]
  constructor
  · intro paired filter has combination found
    exact paired _ ⟨filter, combination, has, found, rfl⟩
  · rintro paired _ ⟨filter, combination, has, found, rfl⟩
    exact paired filter has combination found

theorem drawings_eq_error_iff {glyphs : Glyphs} {symbolizers : List Symbolizer}
    {problem : Problem} : drawings glyphs 0 symbolizers = .error problem ↔
      ∃ place symbolizer cause,
        FirstFault Symbolizer.WriteFault symbolizers place symbolizer cause ∧
          problem = .inSymbolizer place (keyword symbolizer.kind) cause := by
  rw [eq_error_iff_firstFault (drawings glyphs) (Symbolizer.elements glyphs)
    (fun index symbolizer => .inSymbolizer index (keyword symbolizer.kind)) (· ++ ·)
    (fun _ => ⟨[], rfl⟩) (fun _ _ _ _ => rfl)]
  simp only [Nat.zero_add, firstFault_congr fun _ _ => Symbolizer.elements_eq_error_iff]

theorem element_eq_error_iff {glyphs : Glyphs} {rule : Rule} {problem : Problem} :
    rule.element glyphs = .error problem ↔ rule.WriteFault problem := by
  rw [element_eq, bind_eq_error_iff, expression_eq_error_iff]
  constructor
  · rintro (⟨filter, combination, has, found, rfl⟩ | ⟨text, written, failed⟩)
    · exact .filter has found
    · rcases bind_eq_error_iff.mp failed with undrawn | ⟨_, -, ended⟩
      · obtain ⟨place, symbolizer, cause, first, rfl⟩ := drawings_eq_error_iff.mp undrawn
        exact .symbolizer (exists_expression_iff.mp ⟨text, written⟩) first
      · cases ended
  · rintro (⟨has, found⟩ | ⟨sound, first⟩)
    · exact .inl ⟨_, _, has, found, rfl⟩
    · obtain ⟨text, written⟩ := exists_expression_iff.mpr sound
      have undrawn : drawings glyphs 0 rule.symbolizers = _ :=
        drawings_eq_error_iff.mpr ⟨_, _, _, first, rfl⟩
      exact .inr ⟨text, written, bind_eq_error_iff.mpr (.inl undrawn)⟩

/-- A rule has such a fault if a combination is too short or a mark has no glyph. -/
theorem exists_writeFault_iff {rule : Rule} : (∃ problem, rule.WriteFault problem) ↔
    (∃ filter ∈ rule.filter, ∃ combination ∈ filter.combinations, combination.2 < 2) ∨
      ∃ symbolizer ∈ rule.symbolizers, ∃ name ∈ symbolizer.markName?, glyphFile? name = none := by
  have drawn : (∃ symbolizer ∈ rule.symbolizers, ∃ name ∈ symbolizer.markName?,
      glyphFile? name = none) ↔ ∃ place symbolizer cause,
        FirstFault Symbolizer.WriteFault rule.symbolizers place symbolizer cause := by
    rw [exists_firstFault_iff]
    simp [Symbolizer.WriteFault]
  rw [drawn]
  constructor
  · rintro ⟨_, ⟨has, found⟩ | ⟨-, first⟩⟩
    · exact .inl ⟨_, has, _, List.mem_of_find?_eq_some found, by simpa using List.find?_some found⟩
    · exact .inr ⟨_, _, _, first⟩
  · intro fault
    by_cases sound : ∀ filter ∈ rule.filter, Filter.short? filter.combinations = none
    · rcases fault with ⟨filter, has, combination, inside, few⟩ | ⟨place, symbolizer, cause, first⟩
      · have many := List.find?_eq_none.mp (sound filter has) combination inside
        exact absurd few (by simpa using many)
      · exact ⟨_, .symbolizer sound first⟩
    · push Not at sound
      obtain ⟨filter, has, faulty⟩ := sound
      obtain ⟨combination, found⟩ := Option.ne_none_iff_exists'.mp faulty
      exact ⟨_, .filter has found⟩

end Rule

/-! ## Styles -/

namespace Style

theorem ruleElements_eq_error_iff {glyphs : Glyphs} {rules : List Rule} {problem : Problem} :
    ruleElements glyphs 0 rules = .error problem ↔
      ∃ place rule cause, FirstFault Rule.WriteFault rules place rule cause ∧
        problem = .inRule place rule.name cause := by
  rw [eq_error_iff_firstFault (ruleElements glyphs) (Rule.element glyphs)
    (fun index rule => .inRule index rule.name) (· :: ·)
    (fun _ => ⟨[], rfl⟩) (fun _ _ _ _ => rfl)]
  simp only [Nat.zero_add, firstFault_congr fun _ _ => Rule.element_eq_error_iff]

theorem result_element_eq_error_iff {options : Options} {style : Style} {problem : Problem} :
    (style.element options).result = .error problem ↔
      ∃ place rule cause, FirstFault Rule.WriteFault style.rules place rule cause ∧
        problem = .inRule place rule.name cause := by
  rw [result_element, map_eq_error_iff, ruleElements_eq_error_iff]

/-- A style cannot be written, whatever the options, if a filter of a rule combines too few operands
somewhere or the mark of a symbolizer has no glyph, and the problem is that of the first such rule.
-/
theorem element_error_is_first_fault (options : Options) (style : Style) :
    ((∃ problem, (style.element options).result = .error problem) ↔ ∃ rule ∈ style.rules,
      (∃ filter ∈ rule.filter, ∃ combination ∈ filter.combinations, combination.2 < 2) ∨
        ∃ symbolizer ∈ rule.symbolizers, ∃ name ∈ symbolizer.markName?, glyphFile? name = none) ∧
    ∀ problem, (style.element options).result = .error problem ↔
      ∃ place rule cause, FirstFault Rule.WriteFault style.rules place rule cause ∧
        problem = .inRule place rule.name cause := by
  refine ⟨?_, fun problem => result_element_eq_error_iff⟩
  simp only [result_element_eq_error_iff, ← Rule.exists_writeFault_iff]
  rw [← exists_firstFault_iff]
  constructor
  · rintro ⟨_, place, rule, cause, first, rfl⟩
    exact ⟨place, rule, cause, first⟩
  · rintro ⟨place, rule, cause, first⟩
    exact ⟨_, place, rule, cause, first, rfl⟩

end Style

end CartoStyle
