import CartoStyle.Proofs.Filter.Comparisons
import CartoStyle.Proofs.Filter.RoundTrip
import CartoStyle.Proofs.Filter.Spelling

/-!
# Filters from expressions

The name of a property that is cut out of a text has a character and no closing bracket, and every
number there is one (`Expression.isCut_of_scan`). The comparisons of a filter that is read are those
that its tokens spell out, in their order (`Expression.isSound_of_parse`). So every filter that is
read from an expression has an expression again, and that is read back as the same filter, unless it
has come to nest too deep (`Expression.parse_render_of_parse`): a negation in front of an operand is
one level, but the group that is written around the operand is another.
-/

namespace CartoStyle

namespace Expression

open Text (skipSpace)

/-! ## Tokens of a text -/

/-- What a text can be cut into: a property has a name that brackets can enclose, and a number is
one that a literal stands for. -/
inductive IsCut : Token → Prop
  | property {name : List Char} (nonempty : name ≠ []) (open_ : ']' ∉ name) :
      IsCut (.property (String.ofList name))
  | text (content : String) : IsCut (.text content)
  | number (negative : Bool) (value : Decimal) : IsCut (.number (.ofDecimal negative value))
  | word (content : String) : IsCut (.word content)
  | comparison (operator : ComparisonOperator) : IsCut (.comparison operator)
  | connective {token : Token} (joins : token.isConnective) : IsCut token

section Scanning

variable {text rest : List Char} {token : Token}

theorem isCut_of_operatorToken? {spelling : String}
    (found : operatorToken? spelling = some token) : IsCut token := by
  simp only [operatorToken?] at found
  split_ifs at found
  · cases found
    exact .connective rfl
  · cases found
    exact .connective rfl
  · cases found
    exact .connective rfl
  · split at found
    · cases found
      exact .connective rfl
    · obtain ⟨operator, -, rfl⟩ := Option.map_eq_some_iff.mp found
      exact .comparison operator

theorem isCut_of_scanWord (found : scanWord text = .token token rest) : IsCut token := by
  simp only [scanWord] at found
  split at found
  · cases found
  · cases found
    cases known : operatorToken? (String.ofList (text.takeWhile isWordChar)) with
    | none => exact .word _
    | some token => exact isCut_of_operatorToken? known

theorem Spelling.isCut (spelled : Spelling token text) : IsCut token := by
  cases spelled with
  | property nonempty open_ => exact .property nonempty open_
  | text => exact .text _
  | number => exact .number _ _
  | word => exact .word _
  | keyword known => exact isCut_of_operatorToken? known.operatorToken?_eq
  | symbol known =>
    have symbols : ∀ entry ∈ symbolTokens, operatorToken? entry.1 = some entry.2 := by decide
    exact isCut_of_operatorToken? (symbols _ known)

theorem isCut_of_scanToken (found : scanToken text = .token token rest) : IsCut token := by
  rcases scanToken_cases found with ⟨_, spelled, -⟩ | ⟨word, -⟩
  · exact spelled.isCut
  · exact isCut_of_scanWord word

theorem isCut_of_scanFrom {size : Nat} {placed : List Placed}
    (scanned : scanFrom size text = .ok placed) : ∀ next ∈ placed, IsCut next.token := by
  fun_induction scanFrom size text generalizing placed with
  | case1 => cases scanned; simp
  | case2 => cases scanned
  | case3 => cases scanned
  | case4 text position token rest found others inner =>
    rename_i ih
    cases scanned
    exact List.forall_mem_cons.mpr ⟨isCut_of_scanToken found, ih inner⟩
  | case5 => cases scanned

theorem isCut_of_scan {placed : List Placed} (scanned : scan text = .ok placed) :
    ∀ token ∈ placed.map Placed.token, IsCut token :=
  List.forall_mem_map.mpr (isCut_of_scanFrom scanned)

end Scanning

/-! ## Comparisons of a text -/

theorem ofDecimal_ne_nan (negative : Bool) (value : Decimal) :
    Binary64.ofDecimal negative value ≠ .nan := by
  intro nan
  rw [Binary64.ofDecimal] at nan
  split at nan
  · cases nan
  · cases nan

namespace IsCut

theorem name_of_property {name : String} (cut : IsCut (.property name)) :
    name ≠ "" ∧ ']' ∉ name.toList := by
  generalize same : Token.property name = token at cut
  cases cut with
  | property nonempty open_ =>
    cases same
    rw [String.toList_ofList]
    exact ⟨by simpa using nonempty, open_⟩
  | connective joins =>
    cases same
    cases joins
  | _ => cases same

theorem ne_nan {value : Binary64} (cut : IsCut (.number value)) : value ≠ .nan := by
  generalize same : Token.number value = token at cut
  cases cut with
  | number negative fraction =>
    cases same
    exact ofDecimal_ne_nan negative fraction
  | connective joins =>
    cases same
    cases joins
  | _ => cases same

end IsCut

/-- The comparisons that the tokens of a text spell out are such as an expression can hold, if no
token is a pattern match. -/
theorem Holds.isSound {tokens : List Token} {comparisons : List Comparison}
    (holds : Holds tokens comparisons) (cut : ∀ token ∈ tokens, IsCut token)
    (readable : .comparison .matching ∉ tokens) :
    ∀ comparison ∈ comparisons, comparison.IsSound := by
  rintro ⟨operator, name, value⟩ member
  obtain ⟨property, compared, token, inside, denotes⟩ := holds.exists_of_mem member
  obtain ⟨named, enclosed⟩ := (cut _ property).name_of_property
  refine ⟨?_, named, enclosed, ?_⟩
  · rintro rfl
    exact readable compared
  · rintro rfl
    cases denotes
    exact (cut _ inside).ne_nan rfl

/-- What is read from an expression has the comparisons of its tokens. -/
theorem exists_holds_of_parse {text : String} {filter : Filter} (parsed : parse text = .ok filter) :
    ∃ placed, scan text.toList = .ok placed ∧
      Holds (placed.map Placed.token) filter.comparisons ∧
      filter.isPaired ∧ ∀ comparison ∈ filter.comparisons, comparison.IsSound := by
  cases scanned : scan text.toList with
  | error problem =>
    rw [parse, scanned] at parsed
    cases parsed
  | ok placed =>
    rw [parse_of_scan scanned] at parsed
    obtain ⟨nesting, derives⟩ := exists_derives parsed
    obtain ⟨paired, holds⟩ := derives.isPaired_and_holds
    exact ⟨placed, rfl, holds, paired,
      holds.isSound (isCut_of_scan scanned) derives.not_matching⟩

/-- Whatever is read from an expression can be written down as one. -/
theorem isWritable_of_parse {text : String} {filter : Filter} (parsed : parse text = .ok filter) :
    filter.isPaired ∧ filter.every Filter.isReadable ∧ filter.every isNamed ∧
      filter.every Filter.isEnclosed := by
  obtain ⟨_, _, _, paired, sound⟩ := exists_holds_of_parse parsed
  refine ⟨paired, Filter.every_iff.mpr ?_, Filter.every_iff.mpr ?_, Filter.every_iff.mpr ?_⟩
  · intro comparison member
    have readable := (sound comparison member).readable
    simpa [Filter.isReadable, ComparisonOperator.isReadable] using readable
  · intro comparison member
    simpa [isNamed] using (sound comparison member).named
  · intro comparison member
    simpa [Filter.isEnclosed] using (sound comparison member).enclosed

/-- A filter that is read from an expression has two operands or more in each combination, its
comparisons are such as an expression can hold and, from left to right, exactly those that the
tokens of the expression spell out, and it can be written down. -/
theorem isSound_of_parse {text : String} {filter : Filter} (parsed : parse text = .ok filter) :
    filter.isPaired ∧ (∀ comparison ∈ filter.comparisons, comparison.IsSound) ∧
      (∃ placed, scan text.toList = .ok placed ∧ ∀ comparisons,
        Holds (placed.map Placed.token) comparisons ↔ comparisons = filter.comparisons) ∧
      ∃ written, render filter = .ok written := by
  obtain ⟨placed, scanned, holds, paired, sound⟩ := exists_holds_of_parse parsed
  refine ⟨paired, sound, ⟨placed, scanned, fun comparisons => ⟨fun holds' => ?_, ?_⟩⟩,
    exists_render_iff.mpr paired⟩
  · exact holds'.unique holds
  · rintro rfl
    exact holds

/-- Tracks of a kind, but none that is broad or has no name. -/
def tracksText : String := "[kind] = track and not ([width] > 1.5 or [name] = null)"

def tracks : Filter :=
  .combination .and [.comparison .equal "kind" (.text "track"),
    .negation (.combination .or [
      .comparison .greaterThan "width" (.number (.ofDecimal false ⟨15, -1⟩)),
      .comparison .equal "name" .null])]

theorem isSound_of_parse_tracks :
    parse tracksText = .ok tracks ∧ tracks.isPaired ∧
      (∀ comparison ∈ tracks.comparisons, comparison.IsSound) ∧
      (∃ placed, scan tracksText.toList = .ok placed ∧ ∀ comparisons,
        Holds (placed.map Placed.token) comparisons ↔ comparisons = [
          ⟨.equal, "kind", .text "track"⟩,
          ⟨.greaterThan, "width", .number (.ofDecimal false ⟨15, -1⟩)⟩,
          ⟨.equal, "name", .null⟩]) ∧
      ∃ written, render tracks = .ok written := by
  have scanned : scan tracksText.toList = .ok [⟨.property "kind", 0⟩, ⟨.comparison .equal, 7⟩,
      ⟨.word "track", 9⟩, ⟨.combination .and, 15⟩, ⟨.negation, 19⟩, ⟨.opening, 23⟩,
      ⟨.property "width", 24⟩, ⟨.comparison .greaterThan, 32⟩,
      ⟨.number (.ofDecimal false ⟨15, -1⟩), 34⟩, ⟨.combination .or, 38⟩, ⟨.property "name", 41⟩,
      ⟨.comparison .equal, 48⟩, ⟨.word "null", 50⟩, ⟨.closing, 54⟩] :=
    eq_ok_of_toOption (by decide +kernel)
  have parsed : parse tracksText = .ok tracks := parse_of_scan scanned
  exact ⟨parsed, isSound_of_parse parsed⟩

/-- A filter that is read from an expression is written down as an expression. If its numbers are
finite, that is read back as the filter with its inequalities negated equalities where it is nested
no deeper than two hundred and fifty-six levels, and refused for its depth where it is deeper. -/
theorem parse_render_of_parse {text : String} {filter : Filter} (parsed : parse text = .ok filter) :
    ∃ written, render filter = .ok written ∧
      (filter.every Filter.isMeasured →
        (filter.nesting ≤ 256 → parse written = .ok filter.desugared) ∧
        (256 < filter.nesting →
          ∃ position, parse written = .error (.malformed position .tooDeep))) := by
  obtain ⟨paired, readable, named, enclosed⟩ := isWritable_of_parse parsed
  obtain ⟨written, rendered⟩ := exists_render_iff.mpr paired
  refine ⟨written, rendered, fun measured => ?_⟩
  have delimited := Filter.every_isDelimited_iff.mpr ⟨enclosed, measured⟩
  have outcome := parse_of_render rendered readable delimited named
  refine ⟨fun fits => ?_, fun deep => ?_⟩
  · rwa [if_pos (show filter.nesting ≤ depthLimit from fits)] at outcome
  · rwa [if_neg (show ¬filter.nesting ≤ depthLimit from Nat.not_le.mpr deep)] at outcome

/-! ## Chains of negations -/

/-- An operand behind a number of negations. -/
def negationsText (count : Nat) (operand : String) : String :=
  String.ofList ((List.replicate count "not ".toList).flatten ++ operand.toList)

theorem tokens?_negations (size count : Nat) (text : List Char) :
    tokens? size ((List.replicate count "not ".toList).flatten ++ text) =
      (tokens? size text).map (List.replicate count .negation ++ ·) := by
  induction count with
  | zero => simp
  | succ count ih =>
    have first (rest : List Char) :
        tokens? size ("not ".toList ++ rest) = (tokens? size rest).map (.negation :: ·) := by
      have skipped : skipSpace ("not".toList ++ ' ' :: rest) = "not".toList ++ ' ' :: rest := rfl
      have stop : Text.Stops isWordChar (' ' :: rest) := Text.stops_cons.mpr (by decide)
      have found : tokens? size ("not".toList ++ ' ' :: rest) = _ :=
        tokens?_of_token (skipped ▸ scanToken_not stop)
      rwa [tokens?_space] at found
    rw [List.replicate_succ, List.flatten_cons, List.append_assoc, first, ih, Option.map_map]
    rfl

theorem parse_negations {count nesting : Nat} {operand : String} {tokens : List Token}
    {filter : Filter} (spelled : ∀ size, tokens? size operand.toList = some tokens)
    (derives : Operand nesting tokens filter) (fits : nesting + count ≤ depthLimit) :
    parse (negationsText count operand) = .ok (Filter.negated count filter) := by
  have found : tokens? (Text.byteLength (negationsText count operand).toList)
      (negationsText count operand).toList = some (List.replicate count .negation ++ tokens) := by
    rw [negationsText, String.toList_ofList, tokens?_negations, spelled, Option.map_some]
  obtain ⟨placed, scanned, same⟩ := exists_scan found
  rw [parse_of_scan scanned, ofTokens_eq_ok_iff, same]
  exact ⟨nesting + count, fits, (derives.negations count).derives⟩

end Expression

namespace Filter

variable (count : Nat) (filter : Filter)

@[simp] theorem isPaired_negated : (negated count filter).isPaired = filter.isPaired := by
  induction count with
  | zero => rfl
  | succ count ih => exact ih

@[simp] theorem every_negated (p : ComparisonOperator → String → FilterValue → Bool) :
    (negated count filter).every p = filter.every p := by
  induction count with
  | zero => rfl
  | succ count ih => exact ih

@[simp] theorem nesting_negated : (negated count filter).nesting = 2 * count + filter.nesting := by
  induction count with
  | zero => simp [negated]
  | succ count ih =>
    rw [negated, nesting, ih]
    omega

@[simp] theorem desugared_negated :
    (negated count filter).desugared = negated count filter.desugared := by
  induction count with
  | zero => rfl
  | succ count ih => rw [negated, desugared, ih, negated]

end Filter

namespace Expression

/-- A comparison for equality with one. -/
def isOne : Filter := .comparison .equal "a" (.number .one)

theorem parse_negations_isOne {count : Nat} (fits : count ≤ depthLimit) :
    parse (negationsText count "[a] == 1") = .ok (Filter.negated count isOne) := by
  have rendered : render isOne = .ok "[a] == 1" := eq_ok_of_toOption (by decide +kernel)
  have spelled (size : Nat) : tokens? size "[a] == 1".toList =
      some [.property "a", .comparison .equal, .number .one] :=
    tokens?_render (by decide) rendered size
  have derives : Operand 0 [.property "a", .comparison .equal, .number .one] isOne :=
    .comparison (by decide) (.number .one)
  exact parse_negations spelled derives (by omega)

theorem parse_render_negations_of_deep {count : Nat} (deep : 128 < count) :
    ∃ written position, render (Filter.negated count isOne) = .ok written ∧
      parse written = .error (.malformed position .tooDeep) := by
  have expressible : isOne.isExpressible := by decide
  simp only [Filter.isExpressible, Bool.and_eq_true] at expressible
  obtain ⟨⟨⟨paired, readable⟩, delimited⟩, named⟩ := expressible
  obtain ⟨written, rendered⟩ :=
    exists_render_iff.mpr ((Filter.isPaired_negated count isOne).trans paired)
  have outcome := parse_of_render rendered (by simpa using readable) (by simpa using delimited)
    (by simpa using named)
  have beyond : ¬(Filter.negated count isOne).nesting ≤ depthLimit := by
    rw [Filter.nesting_negated, show depthLimit = 256 from rfl]
    omega
  rw [if_neg beyond] at outcome
  obtain ⟨position, refused⟩ := outcome
  exact ⟨written, position, rendered, refused⟩

/-- A hundred and twenty-eight negations are the most that are read back. -/
theorem parse_render_negations_deepest :
    parse (negationsText 128 "[a] == 1") = .ok (Filter.negated 128 isOne) ∧
    ∃ written, render (Filter.negated 128 isOne) = .ok written ∧
      parse written = .ok (Filter.negated 128 isOne) := by
  have parsed := parse_negations_isOne (show 128 ≤ depthLimit by decide)
  obtain ⟨written, rendered, outcome⟩ := parse_render_of_parse parsed
  have fits : (Filter.negated 128 isOne).nesting ≤ 256 := by
    rw [Filter.nesting_negated]
    decide
  have measured : (Filter.negated 128 isOne).every Filter.isMeasured := by
    rw [Filter.every_negated]
    decide
  have read := (outcome measured).1 fits
  rw [Filter.desugared_negated] at read
  exact ⟨parsed, written, rendered, read⟩

/-- One negation more is read, but not read back. -/
theorem parse_render_negations_tooDeep :
    parse (negationsText 129 "[a] == 1") = .ok (Filter.negated 129 isOne) ∧
    ∃ written position, render (Filter.negated 129 isOne) = .ok written ∧
      parse written = .error (.malformed position .tooDeep) :=
  ⟨parse_negations_isOne (by decide), parse_render_negations_of_deep (by decide)⟩

end Expression

end CartoStyle
