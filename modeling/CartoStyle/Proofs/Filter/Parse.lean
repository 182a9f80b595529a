import CartoStyle.Filter.Expression.Parse
import CartoStyle.Proofs.Filter.Grammar

/-!
 # The parser follows the grammar

The parser takes one token at a time. A derivation drives it from a state that waits for an operand
to one that holds the derived filter, as long as its nesting fits into what the open groups leave of
the limit, and to the complaint about the depth otherwise (`Operand.drives`, `Alternatives.drives`).

In the other direction a state is tied to the tokens that led to it (`State.Reads`): the open
groups, the chain in progress and the operand under way each account for a part of them. Every step
keeps this, and where an expression may end it is a derivation.
-/

namespace CartoStyle

theorem Filter.negated_negation (count : Nat) (filter : Filter) :
    Filter.negated count (.negation filter) = Filter.negated (count + 1) filter := by
  induction count with
  | zero => rfl
  | succ count ih => rw [Filter.negated, ih]; rfl

namespace Expression

/-! ## How deep a state is -/

theorem depth_succ (groups : List Group) (negations : Nat) :
    State.depth groups (negations + 1) = State.depth groups negations + 1 := by
  induction groups with
  | nil => rfl
  | cons group groups ih =>
    simp only [State.depth, List.foldr_cons] at ih ⊢
    omega

theorem depth_eq_add (groups : List Group) (negations : Nat) :
    State.depth groups negations = State.depth groups 0 + negations := by
  induction negations with
  | zero => rfl
  | succ negations ih => rw [depth_succ, ih, Nat.add_assoc]

theorem depth_cons (chain : Chain) (negations : Nat) (groups : List Group) :
    State.depth (⟨chain, negations⟩ :: groups) 0 = State.depth groups negations + 1 := by
  rw [depth_eq_add groups]
  simp only [State.depth, List.foldr_cons]
  omega

/-! ## Tokens that go deeper -/

section Deeper

variable (chain : Chain) (groups : List Group) (negations position : Nat)

/-- A negation is taken where there is room for one level more. -/
theorem step_negation : State.step ⟨chain, groups, .operand negations⟩ ⟨.negation, position⟩ =
    if State.depth groups negations < depthLimit then .ok ⟨chain, groups, .operand (negations + 1)⟩
    else .error (.malformed position .tooDeep) := rfl

/-- So is the opening of a group. -/
theorem step_opening : State.step ⟨chain, groups, .operand negations⟩ ⟨.opening, position⟩ =
    if State.depth groups negations < depthLimit then
      .ok ⟨.empty, ⟨chain, negations⟩ :: groups, .operand 0⟩
    else .error (.malformed position .tooDeep) := rfl

end Deeper

/-! ## Derivations drive the parser -/

/-- A row of tokens, wherever they stand in the text, leads from one state to another if `nesting`
is within the limit, and to the complaint about the depth if it is not. -/
def Drives (tokens : List Token) (source target : State) (nesting : Nat) : Prop :=
  ∀ placed : List Placed, placed.map Placed.token = tokens →
    if nesting ≤ depthLimit then placed.foldlM State.step source = .ok target
    else ∃ position, placed.foldlM State.step source = .error (.malformed position .tooDeep)

namespace Drives

variable {source middle target : State} {tokens tokens' : List Token} {token : Token}
  {nesting nesting' : Nat}

theorem nil (state : State) (fits : nesting ≤ depthLimit) : Drives [] state state nesting := by
  intro placed same
  obtain rfl := List.map_eq_nil_iff.mp same
  rw [if_pos fits]
  rfl

theorem append (first : Drives tokens source middle nesting)
    (second : Drives tokens' middle target nesting') :
    Drives (tokens ++ tokens') source target (max nesting nesting') := by
  intro placed same
  obtain ⟨front, back, rfl, same_front, same_back⟩ := List.map_eq_append_iff.mp same
  have ran := first front same_front
  have ran' := second back same_back
  rw [List.foldlM_append]
  by_cases fits : nesting ≤ depthLimit
  · rw [if_pos fits] at ran
    rw [ran]
    by_cases fits' : nesting' ≤ depthLimit
    · rw [if_pos fits'] at ran'
      rw [if_pos (Nat.max_le.mpr ⟨fits, fits'⟩)]
      exact ran'
    · rw [if_neg fits'] at ran'
      rw [if_neg (fun both => fits' (Nat.max_le.mp both).2)]
      exact ran'
  · rw [if_neg fits] at ran
    obtain ⟨position, stopped⟩ := ran
    rw [if_neg (fun both => fits (Nat.max_le.mp both).1), stopped]
    exact ⟨position, rfl⟩

/-- A token that is taken at any depth leads on. -/
theorem cons (taken : ∀ position, source.step ⟨token, position⟩ = .ok middle)
    (rest : Drives tokens middle target nesting) :
    Drives (token :: tokens) source target nesting := by
  intro placed same
  obtain ⟨⟨_, position⟩, others, rfl, rfl, same_others⟩ := List.map_eq_cons_iff.mp same
  rw [List.foldlM_cons, taken]
  exact rest others same_others

/-- A token that opens a level leads on where there is room for it. -/
theorem deeper {depth : Nat} (opened : ∀ position, source.step ⟨token, position⟩ =
      if depth < depthLimit then .ok middle else .error (.malformed position .tooDeep))
    (inside : depth < nesting) (rest : depth < depthLimit → Drives tokens middle target nesting) :
    Drives (token :: tokens) source target nesting := by
  intro placed same
  obtain ⟨⟨_, position⟩, others, rfl, rfl, same_others⟩ := List.map_eq_cons_iff.mp same
  rw [List.foldlM_cons, opened]
  by_cases room : depth < depthLimit
  · rw [if_pos room]
    exact rest room others same_others
  · rw [if_neg room, if_neg (by omega)]
    exact ⟨position, rfl⟩

end Drives

/-- The tokens of a comparison lead to its filter. -/
theorem drives_comparison {name : String} {operator : ComparisonOperator} {token : Token}
    {value : FilterValue} (readable : operator ≠ .matching) (denotes : DenotesValue token value)
    (chain : Chain) (groups : List Group) (negations : Nat)
    (fits : State.depth groups negations ≤ depthLimit) :
    Drives [.property name, .comparison operator, token] ⟨chain, groups, .operand negations⟩
      ⟨chain, groups, .after (Filter.negated negations (.comparison operator name value))⟩
      (State.depth groups negations) := by
  have readable : operator.isReadable = true := by
    simpa [ComparisonOperator.isReadable] using readable
  have named (position : Nat) : State.step ⟨chain, groups, .operand negations⟩
      ⟨.property name, position⟩ = .ok ⟨chain, groups, .operator negations name⟩ := rfl
  have compared (position : Nat) : State.step ⟨chain, groups, .operator negations name⟩
      ⟨.comparison operator, position⟩ = .ok ⟨chain, groups, .value negations name operator⟩ := by
    simp only [State.step, readable, if_true]
  have completed (position : Nat) : State.step ⟨chain, groups, .value negations name operator⟩
      ⟨token, position⟩ = .ok ⟨chain, groups,
        .after (Filter.negated negations (.comparison operator name value))⟩ := by
    simp only [State.step, value?_eq_some_iff.mpr denotes]
  exact .cons named (.cons compared (.cons completed (.nil _ fits)))

mutual

/-- An operand leads from where the parser waits for one to where it holds its filter. -/
theorem Operand.drives {nesting : Nat} {tokens : List Token} {filter : Filter} :
    Operand nesting tokens filter → ∀ (chain : Chain) (groups : List Group) (negations : Nat),
      State.depth groups negations ≤ depthLimit →
      Drives tokens ⟨chain, groups, .operand negations⟩
        ⟨chain, groups, .after (Filter.negated negations filter)⟩
        (State.depth groups negations + nesting)
  | .comparison readable denotes, chain, groups, negations, fits =>
    drives_comparison readable denotes chain groups negations fits
  | @Operand.negation nesting tokens filter operand, chain, groups, negations, fits => by
    apply Drives.deeper (step_negation chain groups negations) (by omega)
    intro room
    have inner := operand.drives chain groups (negations + 1) (by rw [depth_succ]; exact room)
    rw [depth_succ, Nat.add_assoc, Nat.add_comm 1 nesting, ← Filter.negated_negation] at inner
    exact inner
  | @Operand.group nesting tokens filters filter inside chained, chain, groups, negations,
      fits => by
    apply Drives.deeper (step_opening chain groups negations) (by omega)
    intro room
    obtain ⟨inner, last, rfl, drives⟩ :=
      inside.drives (⟨chain, negations⟩ :: groups) (by rw [depth_cons]; exact room)
    obtain ⟨_, rfl⟩ := chained_iff.mp chained
    rw [depth_cons, Nat.add_assoc, Nat.add_comm 1 nesting] at drives
    have closed (position : Nat) : State.step ⟨inner, ⟨chain, negations⟩ :: groups, .after last⟩
        ⟨.closing, position⟩ =
          .ok ⟨chain, groups, .after (Filter.negated negations (inner.close last))⟩ := rfl
    have ended := drives.append (.cons closed (.nil _ (Nat.zero_le _)))
    rw [Nat.max_zero] at ended
    exact ended

/-- A chain of operands leads to where the parser holds its last filter, the others before it. -/
theorem Operands.drives {nesting : Nat} {tokens : List Token} {filters : List Filter} :
    Operands nesting tokens filters → ∀ (alternatives : List Filter) (groups : List Group),
      State.depth groups 0 ≤ depthLimit →
      ∃ front last, filters = front ++ [last] ∧
        Drives tokens ⟨⟨alternatives, []⟩, groups, .operand 0⟩
          ⟨⟨alternatives, front⟩, groups, .after last⟩ (State.depth groups 0 + nesting)
  | .one operand, alternatives, groups, fits =>
    ⟨[], _, rfl, operand.drives _ groups 0 fits⟩
  | .more chain operand, alternatives, groups, fits => by
    obtain ⟨before, last, rfl, first⟩ := chain.drives alternatives groups fits
    have second := operand.drives ⟨alternatives, before ++ [last]⟩ groups 0 fits
    refine ⟨before ++ [last], _, rfl, ?_⟩
    rw [← Nat.add_max_add_left]
    exact first.append (second.cons fun _ => rfl)

/-- A chain of alternatives leads to where the parser holds all of it but the last operand. -/
theorem Alternatives.drives {nesting : Nat} {tokens : List Token} {filters : List Filter} :
    Alternatives nesting tokens filters → ∀ groups : List Group,
      State.depth groups 0 ≤ depthLimit →
      ∃ (chain : Chain) (last : Filter), filters = chain.alternatives ++ [chain.alternative last] ∧
        Drives tokens ⟨.empty, groups, .operand 0⟩ ⟨chain, groups, .after last⟩
          (State.depth groups 0 + nesting)
  | .one alternative chained, groups, fits => by
    obtain ⟨front, last, rfl, drives⟩ := alternative.drives [] groups fits
    obtain ⟨_, rfl⟩ := chained_iff.mp chained
    exact ⟨⟨[], front⟩, last, rfl, drives⟩
  | .more chain alternative chained, groups, fits => by
    obtain ⟨before, last, rfl, first⟩ := chain.drives groups fits
    obtain ⟨operands, last', rfl, second⟩ := alternative.drives
      (before.alternatives ++ [before.alternative last]) groups fits
    obtain ⟨_, rfl⟩ := chained_iff.mp chained
    refine ⟨⟨before.alternatives ++ [before.alternative last], operands⟩, last', rfl, ?_⟩
    rw [← Nat.add_max_add_left]
    exact first.append (second.cons fun _ => rfl)

end

/-- The parser takes a row of tokens that is nested within the limit, and complains about the depth
of one that is not. -/
theorem Derives.ofTokens {nesting : Nat} {placed : List Placed} {filter : Filter}
    (derives : Derives nesting (placed.map Placed.token) filter) (size : Nat) :
    if nesting ≤ depthLimit then Expression.ofTokens size placed = .ok filter
    else ∃ position, Expression.ofTokens size placed = .error (.malformed position .tooDeep) := by
  obtain ⟨filters, alternatives, chained⟩ := derives
  obtain ⟨chain, last, rfl, drives⟩ := alternatives.drives [] (Nat.zero_le _)
  obtain ⟨_, rfl⟩ := chained_iff.mp chained
  have ran := drives placed rfl
  have ground : State.depth [] 0 + nesting = nesting := Nat.zero_add nesting
  rw [ground] at ran
  rw [Expression.ofTokens]
  by_cases fits : nesting ≤ depthLimit
  · rw [if_pos fits] at ran ⊢
    rw [State.start, ran]
    rfl
  · rw [if_neg fits] at ran ⊢
    obtain ⟨position, stopped⟩ := ran
    rw [State.start, stopped]
    exact ⟨position, rfl⟩

/-! ## What the parser has read is a derivation -/

/-- What each kind of token does to a state, where the state takes it. -/
inductive Advances : State → Token → State → Prop
  | negation (chain : Chain) (groups : List Group) (negations : Nat) :
      Advances ⟨chain, groups, .operand negations⟩ .negation
        ⟨chain, groups, .operand (negations + 1)⟩
  | opening (chain : Chain) (groups : List Group) (negations : Nat) :
      Advances ⟨chain, groups, .operand negations⟩ .opening
        ⟨.empty, ⟨chain, negations⟩ :: groups, .operand 0⟩
  | property (chain : Chain) (groups : List Group) (negations : Nat) (name : String) :
      Advances ⟨chain, groups, .operand negations⟩ (.property name)
        ⟨chain, groups, .operator negations name⟩
  | comparison (chain : Chain) (groups : List Group) (negations : Nat) (name : String)
      {operator : ComparisonOperator} (readable : operator ≠ .matching) :
      Advances ⟨chain, groups, .operator negations name⟩ (.comparison operator)
        ⟨chain, groups, .value negations name operator⟩
  | value (chain : Chain) (groups : List Group) (negations : Nat) (name : String)
      (operator : ComparisonOperator) {token : Token} {value : FilterValue}
      (denotes : DenotesValue token value) :
      Advances ⟨chain, groups, .value negations name operator⟩ token
        ⟨chain, groups, .after (Filter.negated negations (.comparison operator name value))⟩
  | conjunction (chain : Chain) (groups : List Group) (operand : Filter) :
      Advances ⟨chain, groups, .after operand⟩ (.combination .and)
        ⟨chain.conjoin operand, groups, .operand 0⟩
  | disjunction (chain : Chain) (groups : List Group) (operand : Filter) :
      Advances ⟨chain, groups, .after operand⟩ (.combination .or)
        ⟨chain.disjoin operand, groups, .operand 0⟩
  | closing (chain around : Chain) (groups : List Group) (negations : Nat) (operand : Filter) :
      Advances ⟨chain, ⟨around, negations⟩ :: groups, .after operand⟩ .closing
        ⟨around, groups, .after (Filter.negated negations (chain.close operand))⟩

theorem advances_of_step {source target : State} {next : Placed}
    (success : source.step next = .ok target) : Advances source next.token target := by
  obtain ⟨chain, groups, mode⟩ := source
  obtain ⟨token, position⟩ := next
  cases mode with
  | operand negations =>
    cases token with
    | negation =>
      rw [step_negation] at success
      split at success
      · cases success
        exact .negation ..
      · cases success
    | opening =>
      rw [step_opening] at success
      split at success
      · cases success
        exact .opening ..
      · cases success
    | property name =>
      cases success
      exact .property ..
    | _ => cases success
  | operator negations name =>
    cases token with
    | comparison operator =>
      simp only [State.step] at success
      split at success
      · rename_i readable
        cases success
        exact .comparison chain groups negations name
          (by simpa [ComparisonOperator.isReadable] using readable)
      · cases success
    | _ => cases success
  | value negations name operator =>
    simp only [State.step] at success
    split at success
    · rename_i value found
      cases success
      exact .value chain groups negations name operator (value?_eq_some_iff.mp found)
    · cases success
  | after operand =>
    cases token with
    | combination operator =>
      cases operator with
      | and =>
        cases success
        exact .conjunction ..
      | or =>
        cases success
        exact .disjunction ..
    | closing =>
      cases groups with
      | nil => cases success
      | cons group groups =>
        cases success
        exact .closing ..
    | _ => cases groups <;> cases success

/-- Nothing yet, or a row of a chain with the operator behind it that calls for more. -/
inductive Pending (row : Nat → List Token → List Filter → Prop) (operator : CombinationOperator) :
    List Filter → List Token → Prop
  | nothing : Pending row operator [] []
  | joined {nesting : Nat} {tokens : List Token} {filters : List Filter}
      (complete : row nesting tokens filters) :
      Pending row operator filters (tokens ++ [.combination operator])

/-- The tokens of a chain in progress, up to the operand that is under way. -/
inductive Chain.Reads : Chain → List Token → Prop
  | parts {alternatives operands : List Filter} {tokens tokens' : List Token}
      (earlier : Pending Alternatives .or alternatives tokens)
      (current : Pending Operands .and operands tokens') :
      Chain.Reads ⟨alternatives, operands⟩ (tokens ++ tokens')

theorem Chain.Reads.empty : Chain.empty.Reads [] := .parts .nothing .nothing

/-- Tokens that end in the openings of some groups. -/
inductive OpenGroups : List Group → List Token → Prop
  | outermost : OpenGroups [] []
  | opening {groups : List Group} {chain : Chain} {before tokens : List Token}
      (outer : OpenGroups groups before) (around : chain.Reads tokens) (negations : Nat) :
      OpenGroups (⟨chain, negations⟩ :: groups)
        (before ++ tokens ++ List.replicate negations .negation ++ [.opening])

/-- The tokens of the operand in progress. -/
inductive Mode.Reads : Mode → List Token → Prop
  | operand (negations : Nat) :
      Mode.Reads (.operand negations) (List.replicate negations .negation)
  | operator (negations : Nat) (name : String) :
      Mode.Reads (.operator negations name)
        (List.replicate negations .negation ++ [.property name])
  | value (negations : Nat) (name : String) {operator : ComparisonOperator}
      (readable : operator ≠ .matching) :
      Mode.Reads (.value negations name operator)
        (List.replicate negations .negation ++ [.property name, .comparison operator])
  | after {nesting : Nat} {tokens : List Token} {filter : Filter}
      (operand : Operand nesting tokens filter) : Mode.Reads (.after filter) tokens

/-- What a state holds accounts for the tokens read so far. -/
inductive State.Reads : State → List Token → Prop
  | parts {chain : Chain} {groups : List Group} {mode : Mode} {before middle last : List Token}
      (open_ : OpenGroups groups before) (around : chain.Reads middle) (current : mode.Reads last) :
      State.Reads ⟨chain, groups, mode⟩ (before ++ middle ++ last)

theorem Pending.operands {filters : List Filter} {tokens tokens' : List Token} {nesting : Nat}
    {filter : Filter} (pending : Pending Operands .and filters tokens)
    (operand : Operand nesting tokens' filter) :
    ∃ nesting', Operands nesting' (tokens ++ tokens') (filters ++ [filter]) := by
  cases pending with
  | nothing => exact ⟨_, .one operand⟩
  | joined complete => exact ⟨_, by simpa using complete.more operand⟩

theorem Pending.alternatives {filters operands : List Filter} {tokens tokens' : List Token}
    {nesting : Nat} {filter : Filter} (pending : Pending Alternatives .or filters tokens)
    (alternative : Operands nesting tokens' operands) (chained : Chained .and operands filter) :
    ∃ nesting', Alternatives nesting' (tokens ++ tokens') (filters ++ [filter]) := by
  cases pending with
  | nothing => exact ⟨_, .one alternative chained⟩
  | joined complete => exact ⟨_, by simpa using complete.more alternative chained⟩

namespace Chain.Reads

variable {chain : Chain} {tokens tokens' : List Token} {nesting : Nat} {filter : Filter}

theorem conjoin (reads : chain.Reads tokens) (last : Operand nesting tokens' filter) :
    (chain.conjoin filter).Reads (tokens ++ tokens' ++ [.combination .and]) := by
  obtain ⟨earlier, current⟩ := reads
  obtain ⟨_, operands⟩ := current.operands last
  have reads := Chain.Reads.parts earlier (.joined operands)
  simp only [List.append_assoc] at reads ⊢
  exact reads

/-- An operand completes the alternative in progress, and with it the chain. -/
theorem alternative (reads : chain.Reads tokens) (last : Operand nesting tokens' filter) :
    ∃ nesting', Alternatives nesting' (tokens ++ tokens')
      (chain.alternatives ++ [chain.alternative filter]) := by
  obtain ⟨earlier, current⟩ := reads
  obtain ⟨_, operands⟩ := current.operands last
  obtain ⟨nesting', alternatives⟩ := earlier.alternatives operands (chained_joined _ _)
  rw [← List.append_assoc] at alternatives
  exact ⟨nesting', alternatives⟩

theorem disjoin (reads : chain.Reads tokens) (last : Operand nesting tokens' filter) :
    (chain.disjoin filter).Reads (tokens ++ tokens' ++ [.combination .or]) := by
  obtain ⟨_, alternatives⟩ := reads.alternative last
  have := Chain.Reads.parts (.joined alternatives) .nothing
  rwa [List.append_nil] at this

end Chain.Reads

/-- Every token that is taken is accounted for. -/
theorem State.Reads.step {source target : State} {tokens : List Token} {token : Token}
    (reads : source.Reads tokens) (advances : Advances source token target) :
    target.Reads (tokens ++ [token]) := by
  obtain ⟨outer, around, current⟩ := reads
  cases advances with
  | negation chain groups negations =>
    cases current
    have := State.Reads.parts outer around (.operand (negations + 1))
    rwa [List.replicate_succ', ← List.append_assoc] at this
  | opening chain groups negations =>
    cases current
    simpa using State.Reads.parts (.opening outer around negations) .empty (.operand 0)
  | property chain groups negations name =>
    cases current
    simpa using State.Reads.parts outer around (.operator negations name)
  | comparison chain groups negations name readable =>
    cases current
    simpa using State.Reads.parts outer around (.value negations name readable)
  | value chain groups negations name operator denotes =>
    cases current with
    | value _ _ readable =>
      have comparison : Operand 0 _ (.comparison operator name _) := .comparison readable denotes
      have operand := comparison.negations negations
      simpa using State.Reads.parts outer around (.after operand)
  | conjunction chain groups operand =>
    cases current with
    | after last =>
      simpa using State.Reads.parts outer (around.conjoin last) (.operand 0)
  | disjunction chain groups operand =>
    cases current with
    | after last =>
      simpa using State.Reads.parts outer (around.disjoin last) (.operand 0)
  | closing chain wider groups negations operand =>
    cases current with
    | after last =>
      cases outer with
      | opening outer wide =>
        obtain ⟨_, alternatives⟩ := around.alternative last
        have group := (Operand.group alternatives (chained_joined ..)).negations negations
        have := State.Reads.parts outer wide (.after group)
        simp at this ⊢
        exact this

theorem State.Reads.run {source target : State} {tokens : List Token} {placed : List Placed}
    (reads : source.Reads tokens) (success : placed.foldlM State.step source = .ok target) :
    target.Reads (tokens ++ placed.map Placed.token) := by
  induction placed generalizing source tokens with
  | nil =>
    cases success
    simpa using reads
  | cons next placed ih =>
    rw [List.foldlM_cons] at success
    cases taken : source.step next with
    | error problem =>
      rw [taken] at success
      cases success
    | ok middle =>
      rw [taken] at success
      have := ih (reads.step (advances_of_step taken)) success
      rwa [List.append_assoc] at this

theorem State.Reads.start : State.start.Reads [] := .parts .outermost .empty (.operand 0)

theorem State.Reads.finish {state : State} {tokens : List Token} {size : Nat} {filter : Filter}
    (reads : state.Reads tokens) (success : state.finish size = .ok filter) :
    ∃ nesting, Derives nesting tokens filter := by
  obtain ⟨outer, around, current⟩ := reads
  cases current with
  | after last =>
    cases outer with
    | outermost =>
      cases success
      obtain ⟨nesting, alternatives⟩ := around.alternative last
      exact ⟨nesting, _, alternatives, chained_joined ..⟩
    | opening => cases success
  | _ => cases success

/-- Whatever the parser takes is an expression. -/
theorem exists_derives {size : Nat} {placed : List Placed} {filter : Filter}
    (success : Expression.ofTokens size placed = .ok filter) :
    ∃ nesting, Derives nesting (placed.map Placed.token) filter := by
  rw [Expression.ofTokens] at success
  cases ran : placed.foldlM State.step State.start with
  | error problem =>
    rw [ran] at success
    cases success
  | ok state =>
    rw [ran] at success
    replace success : state.finish size = .ok filter := success
    have reads := State.Reads.start.run ran
    rw [List.nil_append] at reads
    exact reads.finish success

/-- A derivation within the limit is what the parser returns, and nothing else is. -/
theorem ofTokens_eq_ok_iff {size : Nat} {placed : List Placed} {filter : Filter} :
    Expression.ofTokens size placed = .ok filter ↔
      Denotes depthLimit (placed.map Placed.token) filter := by
  constructor
  · intro success
    obtain ⟨nesting, derives⟩ := exists_derives success
    refine ⟨nesting, ?_, derives⟩
    apply Nat.le_of_not_lt
    intro deep
    have stopped := derives.ofTokens size
    rw [if_neg (Nat.not_le.mpr deep)] at stopped
    obtain ⟨position, stopped⟩ := stopped
    rw [stopped] at success
    cases success
  · rintro ⟨nesting, fits, derives⟩
    have taken := derives.ofTokens size
    rwa [if_pos fits] at taken

theorem parse_of_scan {text : String} {placed : List Placed}
    (scanned : scan text.toList = .ok placed) :
    parse text = Expression.ofTokens (Text.byteLength text.toList) placed := by
  rw [parse, scanned]
  rfl

/-- An expression is read exactly as the grammar has it: where its text is a row of tokens, the
filters that it is read as are those the row stands for when it is nested no deeper than two hundred
and fifty-six levels, and there is never more than one. -/
theorem parse_eq_ok_iff_denotes {text : String} {placed : List Placed}
    (scanned : scan text.toList = .ok placed) :
    (∀ filter, parse text = .ok filter ↔ Denotes 256 (placed.map Placed.token) filter) ∧
      ∀ filter filter', Denotes 256 (placed.map Placed.token) filter →
        Denotes 256 (placed.map Placed.token) filter' → filter = filter' := by
  have exactly (filter : Filter) :
      parse text = .ok filter ↔ Denotes 256 (placed.map Placed.token) filter := by
    rw [parse_of_scan scanned]
    exact ofTokens_eq_ok_iff
  refine ⟨exactly, ?_⟩
  intro filter filter' derived derived'
  have parsed := (exactly filter).mpr derived
  rw [(exactly filter').mpr derived'] at parsed
  exact (Except.ok.inj parsed).symm

theorem eq_ok_of_toOption {ε α : Type} {result : Except ε α} {value : α}
    (found : result.toOption = some value) : result = .ok value := by
  cases result with
  | error problem => cases found
  | ok value' => cases found; rfl

theorem parse_negated_group :
    scan "not ([a] = null or [b] < 'x')".toList = .ok [⟨.negation, 0⟩, ⟨.opening, 4⟩,
      ⟨.property "a", 5⟩, ⟨.comparison .equal, 9⟩, ⟨.word "null", 11⟩, ⟨.combination .or, 16⟩,
      ⟨.property "b", 19⟩, ⟨.comparison .lessThan, 23⟩, ⟨.text "x", 25⟩, ⟨.closing, 28⟩] ∧
    parse "not ([a] = null or [b] < 'x')" = .ok (.negation (.combination .or
      [.comparison .equal "a" .null, .comparison .lessThan "b" (.text "x")])) := by
  have scanned : scan "not ([a] = null or [b] < 'x')".toList = .ok [⟨.negation, 0⟩, ⟨.opening, 4⟩,
      ⟨.property "a", 5⟩, ⟨.comparison .equal, 9⟩, ⟨.word "null", 11⟩, ⟨.combination .or, 16⟩,
      ⟨.property "b", 19⟩, ⟨.comparison .lessThan, 23⟩, ⟨.text "x", 25⟩, ⟨.closing, 28⟩] :=
    eq_ok_of_toOption (by decide +kernel)
  have first : Operand 0 [.property "a", .comparison .equal, .word "null"]
      (.comparison .equal "a" .null) := .comparison (by decide) .null
  have second : Operand 0 [.property "b", .comparison .lessThan, .text "x"]
      (.comparison .lessThan "b" (.text "x")) := .comparison (by decide) (.text "x")
  have inside : Alternatives 0 [.property "a", .comparison .equal, .word "null", .combination .or,
      .property "b", .comparison .lessThan, .text "x"]
      [.comparison .equal "a" .null, .comparison .lessThan "b" (.text "x")] :=
    .more (.one (.one first) (.alone _)) (.one second) (.alone _)
  have negated := (Operand.group inside (.several ..)).negation
  exact ⟨scanned, ((parse_eq_ok_iff_denotes scanned).1 _).mpr ⟨2, by decide, negated.derives⟩⟩

end Expression

end CartoStyle
