import CartoStyle.Proofs.Filter.Cut
import CartoStyle.Proofs.Filter.Misfit

/-!
# Pattern matches are not read back

A pattern match is written like any other comparison, but its operator is refused where the
expression is read. Of several pattern matches it is the leftmost one whose operator is refused:
what stands before it (`Filter.beforeMatch?`) is cut into tokens of its own and leads the parser to
where it waits for an operator (`exists_interrupted`). So no pattern match is read as anything else,
and the symbol of the operator in a name or in a text is refused nowhere (`parse_render_matching`).
-/

namespace CartoStyle

open Expression

namespace Filter

mutual

/-- What stands in the expression of a filter before the operator of its leftmost pattern match. -/
def beforeMatch? : Filter → Option (List Char)
  | .comparison operator property _ =>
    if operator = .matching then some ('[' :: property.toList ++ "] ".toList) else none
  | .combination operator operands => operandsBeforeMatch? operator operands
  | .negation operand => (beforeMatch? operand).map ("not (".toList ++ ·)

/-- What stands before the operator of the leftmost pattern match among some operands. -/
def operandsBeforeMatch? (operator : CombinationOperator) : List Filter → Option (List Char)
  | [] => none
  | operand :: others =>
    match beforeMatch? operand, chars operand with
    | some front, _ => some ('(' :: front)
    | none, .ok part => (operandsBeforeMatch? operator others).map
        (grouped part ++ ' ' :: operator.symbol.toList ++ ' ' :: ·)
    | none, .error _ => none

end

end Filter

namespace Expression

open Text

/-! ## Where the parser waits for an operator -/

/-- Some tokens lead the parser to where it waits for the operator of a comparison. -/
def LeadsToOperator (tokens : List Token) (source : State) : Prop :=
  ∃ target nesting, target.mode.isOperator ∧ nesting ≤ depthLimit ∧
    Drives tokens source target nesting

namespace LeadsToOperator

variable {tokens tokens' : List Token} {token : Token} {source middle : State} {nesting : Nat}

theorem property (name : String) (chain : Chain) (groups : List Group) (negations : Nat) :
    LeadsToOperator [.property name] ⟨chain, groups, .operand negations⟩ :=
  ⟨_, 0, rfl, Nat.zero_le _, .cons (fun _ => rfl) (.nil ⟨chain, groups, .operator negations name⟩
    (Nat.zero_le _))⟩

theorem cons (taken : ∀ position, source.step ⟨token, position⟩ = .ok middle)
    (rest : LeadsToOperator tokens middle) : LeadsToOperator (token :: tokens) source := by
  obtain ⟨target, nesting, waits, fits, drives⟩ := rest
  exact ⟨target, nesting, waits, fits, drives.cons taken⟩

theorem append (first : Drives tokens source middle nesting) (fits : nesting ≤ depthLimit)
    (rest : LeadsToOperator tokens' middle) : LeadsToOperator (tokens ++ tokens') source := by
  obtain ⟨target, nesting', waits, fits', drives⟩ := rest
  exact ⟨target, _, waits, Nat.max_le.mpr ⟨fits, fits'⟩, first.append drives⟩

/-- A group is opened where there is room for it. -/
theorem opening {chain : Chain} {groups : List Group} {negations : Nat}
    (room : State.depth groups negations < depthLimit)
    (rest : LeadsToOperator tokens ⟨.empty, ⟨chain, negations⟩ :: groups, .operand 0⟩) :
    LeadsToOperator (.opening :: tokens) ⟨chain, groups, .operand negations⟩ :=
  rest.cons fun _ => if_pos room

theorem negation {chain : Chain} {groups : List Group} {negations : Nat}
    (room : State.depth groups negations < depthLimit)
    (rest : LeadsToOperator tokens ⟨chain, groups, .operand (negations + 1)⟩) :
    LeadsToOperator (.negation :: tokens) ⟨chain, groups, .operand negations⟩ :=
  rest.cons fun _ => if_pos room

end LeadsToOperator

/-! ## What stands before the leftmost pattern match -/

/-- Behind its front a text goes on with the operator of a pattern match. The front is cut into
tokens, and where enough levels are left these lead the parser to where it waits for an operator. -/
structure Interrupted (text front : List Char) (tokens : List Token) (nesting : Nat) : Prop where
  goesOn : ∃ after, text = front ++ ("*=".toList ++ ' ' :: after)
  cuts : ∀ rest, Cuts front tokens ("*=".toList ++ ' ' :: rest)
  leads : ∀ chain groups, State.depth groups 0 + nesting ≤ depthLimit →
    LeadsToOperator tokens ⟨chain, groups, .operand 0⟩

namespace Interrupted

variable {text part front : List Char} {tokens tokens' : List Token} {nesting nesting' : Nat}

theorem comparison {property : String} (value : FilterValue) (open_ : ']' ∉ property.toList)
    (named : property ≠ "") :
    Interrupted (comparisonText .matching property value) ('[' :: property.toList ++ "] ".toList)
      [.property property] 0 where
  goesOn := ⟨valueText value, by simp [comparisonText, ComparisonOperator.symbol]⟩
  cuts rest := by
    have space : Cuts [' '] [] ("*=".toList ++ ' ' :: rest) := .space
    have cuts := (Cuts.property open_ named).append space
    simpa using cuts
  leads chain groups _ := .property property chain groups 0

/-- What comes behind a pattern match makes no difference. -/
theorem append (inside : Interrupted part front tokens nesting) (more : List Char) :
    Interrupted (part ++ more) front tokens nesting where
  goesOn := by
    obtain ⟨after, rfl⟩ := inside.goesOn
    exact ⟨after ++ more, by simp⟩
  cuts := inside.cuts
  leads := inside.leads

theorem mono (inside : Interrupted part front tokens nesting) (le : nesting ≤ nesting') :
    Interrupted part front tokens nesting' where
  goesOn := inside.goesOn
  cuts := inside.cuts
  leads chain groups fits := inside.leads chain groups (by omega)

theorem grouped (inside : Interrupted part front tokens nesting) :
    Interrupted (grouped part) ('(' :: front) (.opening :: tokens) (1 + nesting) where
  goesOn := by
    obtain ⟨after, rfl⟩ := inside.goesOn
    exact ⟨after ++ [')'], by simp [Expression.grouped]⟩
  cuts rest := Cuts.opening.append (inside.cuts rest)
  leads chain groups fits := by
    apply LeadsToOperator.opening (by omega)
    apply inside.leads
    rw [depth_cons]
    omega

theorem negated (inside : Interrupted part front tokens nesting) :
    Interrupted (negatedText part) ("not (".toList ++ front) (.negation :: .opening :: tokens)
      (2 + nesting) where
  goesOn := by
    obtain ⟨after, same⟩ := inside.grouped.goesOn
    exact ⟨after, by simp [negatedText, same]⟩
  cuts rest := Cuts.negation.append (Cuts.space.append (inside.grouped.cuts rest))
  leads chain groups fits := by
    apply LeadsToOperator.negation (by omega)
    apply LeadsToOperator.opening (by rw [depth_succ]; omega)
    apply inside.leads
    rw [depth_cons, depth_succ]
    omega

/-- Operands that stand before the pattern match are read. -/
theorem behind {operator : CombinationOperator} {earlier : List Char} {filter : Filter}
    (inside : Interrupted part front tokens nesting) (spells : Spells earlier tokens')
    (operand : Operand (nesting' + 1) (Filter.groupTokens tokens') filter) :
    Interrupted (Expression.grouped earlier ++ ' ' :: operator.symbol.toList ++ ' ' :: part)
      (Expression.grouped earlier ++ ' ' :: operator.symbol.toList ++ ' ' :: front)
      (Filter.groupTokens tokens' ++ .combination operator :: tokens)
      (max (nesting' + 1) nesting) where
  goesOn := by
    obtain ⟨after, rfl⟩ := inside.goesOn
    exact ⟨after, by simp⟩
  cuts rest := by
    have joined := Cuts.space.append ((Cuts.combination operator).append
      (Cuts.space.append (inside.cuts rest)))
    have cuts := spells.grouped.append joined
    simpa using cuts
  leads chain groups fits := by
    have drives := operand.drives chain groups 0 (by omega)
    apply LeadsToOperator.append drives (by omega)
    -- either operator makes room for one more operand of the same group
    cases operator <;> exact (inside.leads _ groups (by omega)).cons fun _ => rfl

end Interrupted

theorem everyOperand_isReadable_of_operandsBeforeMatch? {operator : CombinationOperator}
    {operands : List Filter} {text : List Char}
    (rendered : operandChars operator operands = .ok text)
    (absent : Filter.operandsBeforeMatch? operator operands = none)
    (each : ∀ operand ∈ operands, ∀ part, chars operand = .ok part →
      operand.beforeMatch? = none → operand.every Filter.isReadable) :
    Filter.everyOperand Filter.isReadable operands := by
  induction operands generalizing text with
  | nil => rfl
  | cons first others ih =>
    obtain ⟨part, rest, head, last, -⟩ := operandChars_cons rendered
    rw [Filter.operandsBeforeMatch?, head] at absent
    cases before : first.beforeMatch? with
    | some inner =>
      rw [before] at absent
      cases absent
    | none =>
      rw [before] at absent
      have there := ih last (Option.map_eq_none_iff.mp absent) fun operand member =>
        each operand (List.mem_cons_of_mem _ member)
      rw [Filter.everyOperand, each first (List.mem_cons_self ..) part head before, there]
      rfl

/-- Every pattern match has something before it. -/
theorem every_isReadable_of_beforeMatch? {filter : Filter} {text : List Char}
    (rendered : chars filter = .ok text) (absent : filter.beforeMatch? = none) :
    filter.every Filter.isReadable := by
  induction filter using Filter.inductionOn generalizing text with
  | comparison operator property value =>
    rw [Filter.beforeMatch?] at absent
    split at absent
    · cases absent
    · rename_i other
      simpa [Filter.every, Filter.isReadable, ComparisonOperator.isReadable] using other
  | combination operator operands ih =>
    rw [chars] at rendered
    split at rendered
    · cases rendered
    · exact everyOperand_isReadable_of_operandsBeforeMatch? rendered absent
        fun operand member part inner => ih operand member inner
  | negation operand ih =>
    rw [chars] at rendered
    split at rendered
    · rename_i part inner
      exact ih inner (Option.map_eq_none_iff.mp absent)
    · cases rendered

/-- Of several operands, the first one that holds a pattern match is interrupted by it. -/
theorem exists_interrupted_operandChars {operator : CombinationOperator} {operands : List Filter}
    {text front : List Char} (named : Filter.everyOperand isNamed operands)
    (enclosed : Filter.everyOperand Filter.isEnclosed operands)
    (rendered : operandChars operator operands = .ok text)
    (found : Filter.operandsBeforeMatch? operator operands = some front)
    (each : ∀ operand ∈ operands, ∀ part front, chars operand = .ok part →
      operand.beforeMatch? = some front → ∃ tokens, Interrupted part front tokens operand.nesting) :
    ∃ tokens, Interrupted text front tokens (1 + Filter.operandNesting operands) := by
  induction operands generalizing text front with
  | nil => cases found
  | cons first others ih =>
    obtain ⟨part, tail, head, last, rfl⟩ := operandChars_cons rendered
    rw [Filter.everyOperand, Bool.and_eq_true] at named enclosed
    rw [Filter.operandsBeforeMatch?, head] at found
    rw [Filter.operandNesting]
    cases before : first.beforeMatch? with
    | some inner =>
      rw [before] at found
      cases found
      obtain ⟨tokens, inside⟩ := each first (List.mem_cons_self ..) part inner head before
      exact ⟨_, (inside.grouped.append _).mono (by omega)⟩
    | none =>
      rw [before] at found
      obtain ⟨behind, there, rfl⟩ := Option.map_eq_some_iff.mp found
      obtain ⟨tokens, inside⟩ := ih named.2 enclosed.2 last there fun operand member =>
        each operand (List.mem_cons_of_mem _ member)
      obtain ⟨tokens', spells, derives⟩ := exists_spells named.1 enclosed.1 head
      obtain ⟨filter, expression⟩ := derives (every_isReadable_of_beforeMatch? head before)
      have more : tail ≠ [] := by
        obtain ⟨after, rfl⟩ := inside.goesOn
        simp
      rw [if_neg more, ← List.append_assoc]
      exact ⟨_, (inside.behind spells expression.group).mono (by omega)⟩

theorem exists_interrupted {filter : Filter} {text front : List Char}
    (named : filter.every isNamed) (enclosed : filter.every Filter.isEnclosed)
    (rendered : chars filter = .ok text) (found : filter.beforeMatch? = some front) :
    ∃ tokens, Interrupted text front tokens filter.nesting := by
  induction filter using Filter.inductionOn generalizing text front with
  | comparison operator property value =>
    rw [Filter.beforeMatch?] at found
    split at found
    · rename_i matching
      subst matching
      cases found
      cases rendered
      have visible : property ≠ "" := by simpa [Filter.every, isNamed] using named
      have open_ : ']' ∉ property.toList := by
        simpa [Filter.every, Filter.isEnclosed] using enclosed
      exact ⟨_, .comparison value open_ visible⟩
    · cases found
  | combination operator operands ih =>
    rw [chars] at rendered
    split at rendered
    · cases rendered
    · exact exists_interrupted_operandChars named enclosed rendered found
        fun operand member part front inner before => ih operand member
          (Filter.everyOperand_iff.mp named operand member)
          (Filter.everyOperand_iff.mp enclosed operand member) inner before
  | negation operand ih =>
    rw [Filter.beforeMatch?] at found
    obtain ⟨inner, there, rfl⟩ := Option.map_eq_some_iff.mp found
    rw [chars] at rendered
    split at rendered
    · rename_i part written
      cases rendered
      obtain ⟨tokens, inside⟩ := ih named enclosed written there
      exact ⟨_, inside.negated⟩
    · cases rendered

/-! ## Reading the expression -/

/-- A text that is cut into tokens is scanned. -/
theorem Spells.exists_scan {text : List Char} {tokens : List Token} (spells : Spells text tokens) :
    ∃ placed, scan text = .ok placed ∧ placed.map Placed.token = tokens := by
  obtain ⟨placed, same, scanned⟩ := spells [] stops_nil (byteLength text)
  rw [List.append_nil] at scanned
  have ended : scanFrom (byteLength text) [] = .ok [] := by
    rw [scanFrom]
    rfl
  rw [ended] at scanned
  exact ⟨placed, scanned.trans (by simp [Except.map]), same⟩

/-- The operator of a pattern match is refused where it stands, if the whole text is one of tokens.
-/
theorem Interrupted.parse_eq {text : String} {front : List Char} {tokens : List Token}
    {placed : List Placed} {nesting : Nat}
    (interrupted : Interrupted text.toList front tokens nesting) (shallow : nesting ≤ depthLimit)
    (scanned : scan text.toList = .ok placed) :
    parse text = .error (.unsupportedOperator .matching (byteLength front)) := by
  obtain ⟨after, whole⟩ := interrupted.goesOn
  obtain ⟨before, same, cut⟩ := interrupted.cuts after (byteLength text.toList)
  have operator : scanToken (skipSpace ("*=".toList ++ ' ' :: after)) =
      .token (.comparison .matching) (' ' :: after) := rfl
  have place : byteLength text.toList - byteLength (skipSpace ("*=".toList ++ ' ' :: after)) =
      byteLength front := by
    have unspaced : skipSpace ("*=".toList ++ ' ' :: after) = "*=".toList ++ ' ' :: after := rfl
    rw [unspaced, whole, byteLength_append, Nat.add_sub_cancel]
  have found := scanned
  rw [← whole] at cut
  rw [scan, cut, scanFrom_of_token operator, place] at found
  obtain ⟨_, behind, rfl⟩ := map_eq_ok_iff.mp found
  obtain ⟨others, -, rfl⟩ := map_eq_ok_iff.mp behind
  obtain ⟨⟨chain, groups, mode⟩, depth, waits, fits, drives⟩ :=
    interrupted.leads .empty [] (by rwa [State.depth, List.foldr_nil, Nat.zero_add])
  have ran := drives before same
  rw [if_pos fits] at ran
  rw [parse_of_scan scanned, ofTokens, List.foldlM_append, State.start, ran, ok_bind]
  cases mode with
  | operator negations name => rfl
  | _ => cases waits

/-- A filter whose combinations have two operands has an expression. If its names are visible and do
not close their brackets, the expression is refused at the operator of the leftmost pattern match,
as long as it nests within the limit; and without a pattern match no operator is refused, whatever
the names and texts hold. -/
theorem parse_render_matching {filter : Filter} (paired : filter.isPaired)
    (named : filter.every isNamed) (enclosed : filter.every Filter.isEnclosed) :
    ∃ text, render filter = .ok text ∧
      (filter.every Filter.isReadable = false → filter.nesting ≤ 256 →
        ∃ before after, filter.beforeMatch? = some before ∧
          text.toList = before ++ ("*=".toList ++ after) ∧
          parse text = .error (.unsupportedOperator .matching (byteLength before))) ∧
      (filter.every Filter.isReadable →
        ∀ operator position, parse text ≠ .error (.unsupportedOperator operator position)) := by
  obtain ⟨text, rendered⟩ := exists_render_iff.mpr paired
  have written := render_eq_ok_iff.mp rendered
  obtain ⟨tokens, spells, derives⟩ := exists_spells named enclosed written
  obtain ⟨placed, scanned, same⟩ := spells.exists_scan
  refine ⟨text, rendered, fun unreadable shallow => ?_, fun readable operator position => ?_⟩
  · cases found : filter.beforeMatch? with
    | none =>
      rw [every_isReadable_of_beforeMatch? written found] at unreadable
      cases unreadable
    | some before =>
      obtain ⟨_, interrupted⟩ := exists_interrupted named enclosed written found
      obtain ⟨after, whole⟩ := interrupted.goesOn
      exact ⟨before, ' ' :: after, rfl, whole, interrupted.parse_eq shallow scanned⟩
  · obtain ⟨filter', expression⟩ := derives readable
    rw [← same] at expression
    have outcome := expression.ofTokens (byteLength text.toList)
    rw [parse_of_scan scanned]
    split at outcome
    · rw [outcome]
      nofun
    · obtain ⟨_, refused⟩ := outcome
      rw [refused]
      nofun

/-- Two pattern matches behind a comparison whose name and text spell their operator. -/
def wildcards : Filter :=
  .combination .or [.comparison .equal "straße *= [x" (.text "it's *= ü"),
    .negation (.combination .and [.comparison .notEqual "lanes" (.number .nan),
      .comparison .matching "naïve" (.text "*=")]),
    .comparison .matching "a" .null]

theorem parse_render_wildcards :
    wildcards.isPaired ∧ wildcards.every isNamed ∧ wildcards.every Filter.isEnclosed ∧
      wildcards.every Filter.isReadable = false ∧ wildcards.nesting = 6 ∧
      ∃ text, render wildcards = .ok text ∧
        text = "([straße *= [x] == 'it\\'s *= ü') || " ++
          "(not ((not ([lanes] == NaN)) && ([naïve] *= '*='))) || ([a] *= null)" ∧
        parse text = .error (.unsupportedOperator .matching 80) := by
  have paired : wildcards.isPaired := by decide
  have named : wildcards.every isNamed := by decide
  have enclosed : wildcards.every Filter.isEnclosed := by decide
  have unreadable : wildcards.every Filter.isReadable = false := by decide
  obtain ⟨text, rendered, refused, -⟩ := parse_render_matching paired named enclosed
  obtain ⟨before, after, found, -, refused⟩ := refused unreadable (by decide)
  have written := rendered
  cases rendered
  cases found
  exact ⟨paired, named, enclosed, unreadable, rfl, _, written, by decide +kernel, refused⟩

end Expression

end CartoStyle
