import CartoStyle.Proofs.Filter.Lexing
import CartoStyle.Proofs.Filter.Parse

/-!
 # Reading back a rendered filter

A filter is rendered if its combinations have two operands or more (`exists_chars_iff`). Its text is
then cut into its tokens, which are an expression of its desugared form nested as deep as the
filter; so whether it is read back is a matter of its nesting alone.
-/

namespace CartoStyle

open Expression

namespace Filter

/-- A comparison with a number that has digits, if it is one with a number. -/
def isMeasured (_ : ComparisonOperator) (_ : String) (value : FilterValue) : Bool := value.isFinite

/-- A name that does not close the brackets around it. -/
def isEnclosed (_ : ComparisonOperator) (property : String) (_ : FilterValue) : Bool :=
  !property.toList.contains ']'

theorem every_isDelimited_iff {filter : Filter} :
    filter.every Expression.isDelimited ↔ filter.every isEnclosed ∧ filter.every isMeasured := by
  induction filter using inductionOn with
  | comparison operator property value =>
    cases value <;>
      simp [every, Expression.isDelimited, isEnclosed, isMeasured, FilterValue.isFinite]
  | combination operator operands ih =>
    simp only [every, everyOperand_iff]
    constructor
    · intro all
      exact ⟨fun operand member => ((ih operand member).mp (all operand member)).1,
        fun operand member => ((ih operand member).mp (all operand member)).2⟩
    · rintro ⟨names, numbers⟩ operand member
      exact (ih operand member).mpr ⟨names operand member, numbers operand member⟩
  | negation operand ih => exact ih

end Filter

/-- A filter that an expression can hold: every combination has two operands, and every comparison
an operator that can be read back, a name without a closing bracket and a number with digits. -/
def Filter.isExpressible (filter : Filter) : Bool :=
  filter.isPaired && filter.every isReadable && filter.every isDelimited && filter.every isNamed

namespace Expression

/-! ## Which filters are rendered -/

theorem exists_operandChars_iff {operator : CombinationOperator} {operands : List Filter} :
    (∃ text, operandChars operator operands = .ok text) ↔
      ∀ operand ∈ operands, ∃ part, chars operand = .ok part := by
  induction operands with
  | nil => simp [operandChars]
  | cons operand others ih =>
    rw [List.forall_mem_cons, ← ih]
    constructor
    · rintro ⟨text, rendered⟩
      obtain ⟨part, rest, first, last, _⟩ := operandChars_cons rendered
      exact ⟨⟨part, first⟩, rest, last⟩
    · rintro ⟨⟨part, first⟩, rest, last⟩
      rw [operandChars, first]
      cases rest with
      | nil => exact ⟨_, by rw [last]⟩
      | cons c rest => exact ⟨_, by rw [last]⟩

theorem exists_chars_iff {filter : Filter} :
    (∃ text, chars filter = .ok text) ↔ filter.isPaired := by
  induction filter using Filter.inductionOn with
  | comparison operator property value => exact ⟨fun _ => rfl, fun _ => ⟨_, rfl⟩⟩
  | combination operator operands ih =>
    have each : (∃ text, operandChars operator operands = .ok text) ↔
        Filter.arePaired operands := by
      rw [exists_operandChars_iff, Filter.arePaired_iff]
      exact forall₂_congr ih
    rw [chars, Filter.isPaired, Bool.and_eq_true, decide_eq_true_eq, ← each]
    by_cases few : operands.length < 2
    · rw [if_pos few]
      constructor
      · rintro ⟨text, ⟨⟩⟩
      · rintro ⟨several, _⟩
        omega
    · rw [if_neg few]
      exact ⟨fun rendered => ⟨by omega, rendered⟩, fun both => both.2⟩
  | negation operand ih =>
    rw [Filter.isPaired, ← ih, chars]
    constructor
    · rintro ⟨text, rendered⟩
      cases inner : chars operand with
      | ok part => exact ⟨part, rfl⟩
      | error problem =>
        rw [inner] at rendered
        cases rendered
    · rintro ⟨part, inner⟩
      exact ⟨_, by rw [inner]⟩

theorem render_eq_ok_iff {filter : Filter} {text : String} :
    render filter = .ok text ↔ chars filter = .ok text.toList := by
  rw [render]
  cases chars filter with
  | error problem => exact ⟨nofun, nofun⟩
  | ok part =>
    constructor
    · rintro ⟨rfl⟩
      simp
    · intro same
      rw [Except.ok.inj same]
      simp [Except.map]

theorem exists_render_iff {filter : Filter} :
    (∃ text, render filter = .ok text) ↔ filter.isPaired := by
  rw [← exists_chars_iff]
  constructor
  · rintro ⟨text, rendered⟩
    exact ⟨_, render_eq_ok_iff.mp rendered⟩
  · rintro ⟨chars, written⟩
    exact ⟨String.ofList chars, render_eq_ok_iff.mpr (by rwa [String.toList_ofList])⟩

/-! ## What is read back -/

theorem tokens?_eq_of_scan {text : List Char} {placed : List Placed}
    (scanned : scan text = .ok placed) :
    tokens? (Text.byteLength text) text = some (placed.map Placed.token) := by
  rw [tokens?, ← scan, scanned]
  rfl

theorem exists_scan {text : List Char} {tokens : List Token}
    (found : tokens? (Text.byteLength text) text = some tokens) :
    ∃ placed, scan text = .ok placed ∧ placed.map Placed.token = tokens := by
  rw [tokens?, ← scan] at found
  cases scanned : scan text with
  | error problem =>
    rw [scanned] at found
    cases found
  | ok placed =>
    rw [scanned] at found
    exact ⟨placed, rfl, Option.some.inj found⟩

/-- The text of a filter as a row of tokens. -/
theorem tokens?_render {filter : Filter} (delimited : filter.every isDelimited) {text : String}
    (rendered : render filter = .ok text) (size : Nat) :
    tokens? size text.toList = if filter.every isNamed then some filter.tokens else none := by
  have found := tokens?_chars delimited (render_eq_ok_iff.mp rendered) size Text.stops_nil
  rwa [List.append_nil, tokens?_nil, leading, Option.map_some, List.append_nil] at found

/-- Only pattern matches put their symbol into the tokens of a filter. -/
theorem every_isReadable_of_not_mem {filter : Filter}
    (absent : .comparison .matching ∉ filter.tokens) : filter.every Filter.isReadable := by
  induction filter using Filter.inductionOn with
  | comparison operator property value =>
    cases operator with
    | matching => exact absurd (by simp [Filter.tokens, Filter.comparisonTokens]) absent
    | _ => rfl
  | combination operator operands ih =>
    apply Filter.everyOperand_iff.mpr
    intro operand member
    apply ih operand member
    intro present
    apply absent
    exact Filter.mem_operandTokens member present
  | negation operand ih =>
    apply ih
    intro present
    exact absent (by simp [Filter.tokens, Filter.groupTokens, present])

/-- The text of a filter whose comparisons can be told apart is read as its desugared form or
refused for its depth. -/
theorem parse_of_render {filter : Filter} {text : String} (rendered : render filter = .ok text)
    (readable : filter.every Filter.isReadable) (delimited : filter.every isDelimited)
    (named : filter.every isNamed) :
    if filter.nesting ≤ depthLimit then parse text = .ok filter.desugared
    else ∃ position, parse text = .error (.malformed position .tooDeep) := by
  have found := tokens?_render delimited rendered (Text.byteLength text.toList)
  rw [if_pos named] at found
  obtain ⟨placed, scanned, same⟩ := exists_scan found
  have paired := exists_chars_iff.mp ⟨_, render_eq_ok_iff.mp rendered⟩
  have derives := Filter.derives_tokens paired readable
  rw [← same] at derives
  rw [parse_of_scan scanned]
  exact derives.ofTokens _

/-- Whatever the text of a filter is read as is its desugared form, and then the filter is one that
expressions can hold. -/
theorem eq_desugared_of_parse {filter filter' : Filter} {text : String}
    (rendered : render filter = .ok text) (delimited : filter.every isDelimited)
    (parsed : parse text = .ok filter') :
    filter' = filter.desugared ∧ filter.isExpressible ∧ filter.nesting ≤ 256 := by
  cases scanned : scan text.toList with
  | error problem =>
    rw [parse, scanned] at parsed
    cases parsed
  | ok placed =>
    have found := tokens?_eq_of_scan scanned
    rw [tokens?_render delimited rendered] at found
    by_cases named : filter.every isNamed = true
    · rw [if_pos named] at found
      have taken := parsed
      rw [parse_of_scan scanned, ofTokens_eq_ok_iff, ← Option.some.inj found] at taken
      obtain ⟨_, _, _, alternatives, _⟩ := taken
      have readable := every_isReadable_of_not_mem alternatives.not_matching
      have paired := exists_chars_iff.mp ⟨_, render_eq_ok_iff.mp rendered⟩
      have outcome := parse_of_render rendered readable delimited named
      split at outcome
      · rename_i fits
        rw [parsed] at outcome
        exact ⟨Except.ok.inj outcome,
          by simp [Filter.isExpressible, paired, readable, delimited, named],
          fits⟩
      · obtain ⟨position, stopped⟩ := outcome
        rw [parsed] at stopped
        cases stopped
    · rw [if_neg named] at found
      cases found

theorem parse_of_isExpressible {filter : Filter} {text : String}
    (rendered : render filter = .ok text) (expressible : filter.isExpressible)
    (shallow : filter.nesting ≤ depthLimit) : parse text = .ok filter.desugared := by
  simp only [Filter.isExpressible, Bool.and_eq_true] at expressible
  obtain ⟨⟨⟨-, readable⟩, delimited⟩, named⟩ := expressible
  have outcome := parse_of_render rendered readable delimited named
  rwa [if_pos shallow] at outcome

/-- A filter that an expression can hold is rendered, and its text is read back as the same filter
with its inequalities negated equalities if it is nested no deeper than two hundred and fifty-six
levels; a deeper one is refused for its depth. -/
theorem parse_render {filter : Filter} (expressible : filter.isExpressible) :
    ∃ text, render filter = .ok text ∧
      (filter.nesting ≤ 256 → parse text = .ok filter.desugared) ∧
      (256 < filter.nesting →
        ∃ position, parse text = .error (.malformed position .tooDeep)) := by
  simp only [Filter.isExpressible, Bool.and_eq_true] at expressible
  obtain ⟨⟨⟨paired, readable⟩, delimited⟩, named⟩ := expressible
  obtain ⟨chars, written⟩ := exists_chars_iff.mpr paired
  have rendered : render filter = .ok (String.ofList chars) := by rw [render, written]; rfl
  have outcome := parse_of_render rendered readable delimited named
  refine ⟨String.ofList chars, rendered, ?_, ?_⟩
  · intro fits
    rwa [if_pos (show filter.nesting ≤ depthLimit from fits)] at outcome
  · intro deep
    rwa [if_neg (show ¬filter.nesting ≤ depthLimit from Nat.not_le.mpr deep)] at outcome

theorem parse_render_inequality :
    (Filter.combination .and [.comparison .notEqual "a" (.text "it's"),
      .comparison .lessThan "b" (.number .one)]).isExpressible ∧
    ∃ text, render (.combination .and [.comparison .notEqual "a" (.text "it's"),
      .comparison .lessThan "b" (.number .one)]) = .ok text ∧
      parse text = .ok (.combination .and [.negation (.comparison .equal "a" (.text "it's")),
        .comparison .lessThan "b" (.number .one)]) := by
  have expressible : (Filter.combination .and [.comparison .notEqual "a" (.text "it's"),
      .comparison .lessThan "b" (.number .one)]).isExpressible := by decide
  obtain ⟨text, rendered, shallow, _⟩ := parse_render expressible
  exact ⟨expressible, text, rendered, shallow (by decide)⟩

end Expression

end CartoStyle
