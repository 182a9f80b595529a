import CartoStyle.Filter.Expression.Scan

/-!
# From tokens to filters

An expression is a chain of alternatives joined by `||`, each a chain of operands joined by `&&`; an
operand is a comparison, a group in parentheses, or the negation of an operand. A chain of one
operand is that operand, a longer one is a single combination of all its operands.

The parser keeps what it knows of the part already read in a `State` and takes one token at a time.
A token that no complete expression can have at its place is refused at once, with its position, so
the first problem found is the leftmost one.
-/

namespace CartoStyle.Expression

/-- The chain that is being read at one level: the alternatives that are complete, and the operands
of the one in progress. -/
structure Chain where
  alternatives : List Filter
  operands : List Filter

namespace Chain

def empty : Chain := ⟨[], []⟩

/-- The chain with one more operand, to be followed by another. -/
def conjoin (chain : Chain) (operand : Filter) : Chain :=
  { chain with operands := chain.operands ++ [operand] }

/-- The alternative in progress, ended by an operand. -/
def alternative (chain : Chain) (operand : Filter) : Filter :=
  Filter.joined .and (chain.operands ++ [operand])

/-- The chain with its alternative ended by an operand, to be followed by another alternative. -/
def disjoin (chain : Chain) (operand : Filter) : Chain :=
  ⟨chain.alternatives ++ [chain.alternative operand], []⟩

/-- The filter of a chain ended by an operand. -/
def close (chain : Chain) (operand : Filter) : Filter :=
  Filter.joined .or (chain.alternatives ++ [chain.alternative operand])

end Chain

/-- A group that is still open: the chain around it, and how many negations wait for it. -/
structure Group where
  around : Chain
  negations : Nat

/-- What the next token has to be. -/
inductive Mode where
  /-- An operand, for which some negations wait. -/
  | operand (negations : Nat)
  /-- The operator of a comparison. -/
  | operator (negations : Nat) (property : String)
  /-- The value of a comparison. -/
  | value (negations : Nat) (property : String) (operator : ComparisonOperator)
  /-- Whatever can follow a complete operand. -/
  | after (operand : Filter)

/-- What is known of an expression of which some tokens have been read. -/
structure State where
  chain : Chain
  /-- The open groups, the innermost first. -/
  groups : List Group
  mode : Mode

namespace State

def start : State := ⟨.empty, [], .operand 0⟩

/-- How many groups and negations are open around an operand under some negations. -/
def depth (groups : List Group) (negations : Nat) : Nat :=
  groups.foldr (fun group outer => group.negations + 1 + outer) negations

/-- One token more. -/
def step (state : State) (next : Placed) : Except Problem State :=
  let refuse (wanted : Wanted) : Except Problem State :=
    .error (.malformed next.position (.unexpected wanted (some next.token)))
  match state.mode, next.token with
  | .operand negations, .negation =>
    if depth state.groups negations < depthLimit then
      .ok { state with mode := .operand (negations + 1) }
    else .error (.malformed next.position .tooDeep)
  | .operand negations, .opening =>
    if depth state.groups negations < depthLimit then
      .ok ⟨.empty, ⟨state.chain, negations⟩ :: state.groups, .operand 0⟩
    else .error (.malformed next.position .tooDeep)
  | .operand negations, .property name => .ok { state with mode := .operator negations name }
  | .operand _, _ => refuse .property
  | .operator negations property, .comparison operator =>
    if operator.isReadable then .ok { state with mode := .value negations property operator }
    else .error (.unsupportedOperator operator next.position)
  | .operator _ _, _ => refuse .comparison
  | .value negations property operator, token =>
    match token.value? with
    | some value =>
      let comparison : Filter := .comparison operator property value
      .ok { state with mode := .after (Filter.negated negations comparison) }
    | none => refuse .value
  | .after operand, .combination .and => .ok ⟨state.chain.conjoin operand, state.groups, .operand 0⟩
  | .after operand, .combination .or => .ok ⟨state.chain.disjoin operand, state.groups, .operand 0⟩
  | .after operand, token =>
    match state.groups, token with
    | group :: groups, .closing =>
      .ok ⟨group.around, groups,
        .after (Filter.negated group.negations (state.chain.close operand))⟩
    | _ :: _, _ => refuse .closing
    | [], _ => .error (.malformed next.position (.trailing token))

/-- The filter of an expression that ends here, `size` bytes from its start. -/
def finish (size : Nat) (state : State) : Except Problem Filter :=
  let missing (wanted : Wanted) : Except Problem Filter :=
    .error (.malformed size (.unexpected wanted none))
  match state.mode, state.groups with
  | .operand _, _ => missing .property
  | .operator _ _, _ => missing .comparison
  | .value _ _ _, _ => missing .value
  | .after _, _ :: _ => missing .closing
  | .after operand, [] => .ok (state.chain.close operand)

end State

/-- The filter that the tokens of an expression of `size` bytes stand for. -/
def ofTokens (size : Nat) (tokens : List Placed) : Except Problem Filter := do
  let state ← tokens.foldlM State.step State.start
  state.finish size

/-- The filter that an expression stands for. -/
def parse (text : String) : Except Problem Filter := do
  let tokens ← scan text.toList
  ofTokens (Text.byteLength text.toList) tokens

end CartoStyle.Expression
