import CartoStyle.Filter.Expression.Token

/-!
 # The grammar of filter expressions

An expression is a chain of alternatives joined by `||`, each of them a chain of operands joined by
`&&`; an operand is a comparison, a group in parentheses or the negation of an operand. The
relations here say which rows of tokens these are and which filter a row stands for, without a word
on how it is read.

The first argument of each relation is the nesting of the derivation: the largest number of groups
and negations that are open at once. The nesting of a chain is the largest of its parts, so parts
that stand beside one another never add up.
-/

namespace CartoStyle.Expression

/-- A token stands for the value of a comparison. -/
inductive DenotesValue : Token → FilterValue → Prop
  | text (content : String) : DenotesValue (.text content) (.text content)
  | number (value : Binary64) : DenotesValue (.number value) (.number value)
  | null : DenotesValue (.word "null") .null
  | word {content : String} (other : content ≠ "null") :
      DenotesValue (.word content) (.text content)

/-- A chain of one filter stands for that filter, a longer one for a single combination. -/
inductive Chained (operator : CombinationOperator) : List Filter → Filter → Prop
  | alone (filter : Filter) : Chained operator [filter] filter
  | several (first second : Filter) (others : List Filter) :
      Chained operator (first :: second :: others)
        (.combination operator (first :: second :: others))

mutual

/-- A row of tokens is an operand that stands for a filter. -/
inductive Operand : Nat → List Token → Filter → Prop
  | comparison {name : String} {operator : ComparisonOperator} {token : Token} {value : FilterValue}
      (readable : operator ≠ .matching) (denotes : DenotesValue token value) :
      Operand 0 [.property name, .comparison operator, token] (.comparison operator name value)
  | negation {nesting : Nat} {tokens : List Token} {filter : Filter}
      (operand : Operand nesting tokens filter) :
      Operand (nesting + 1) (.negation :: tokens) (.negation filter)
  | group {nesting : Nat} {tokens : List Token} {filters : List Filter} {filter : Filter}
      (inside : Alternatives nesting tokens filters) (chained : Chained .or filters filter) :
      Operand (nesting + 1) (.opening :: tokens ++ [.closing]) filter

/-- A row of tokens is a chain of operands that stand for some filters. -/
inductive Operands : Nat → List Token → List Filter → Prop
  | one {nesting : Nat} {tokens : List Token} {filter : Filter}
      (operand : Operand nesting tokens filter) : Operands nesting tokens [filter]
  | more {nesting nesting' : Nat} {tokens tokens' : List Token} {filters : List Filter}
      {filter : Filter} (chain : Operands nesting tokens filters)
      (operand : Operand nesting' tokens' filter) :
      Operands (max nesting nesting') (tokens ++ .combination .and :: tokens') (filters ++ [filter])

/-- A row of tokens is a chain of alternatives that stand for some filters. -/
inductive Alternatives : Nat → List Token → List Filter → Prop
  | one {nesting : Nat} {tokens : List Token} {operands : List Filter} {filter : Filter}
      (alternative : Operands nesting tokens operands) (chained : Chained .and operands filter) :
      Alternatives nesting tokens [filter]
  | more {nesting nesting' : Nat} {tokens tokens' : List Token} {filters operands : List Filter}
      {filter : Filter} (chain : Alternatives nesting tokens filters)
      (alternative : Operands nesting' tokens' operands) (chained : Chained .and operands filter) :
      Alternatives (max nesting nesting') (tokens ++ .combination .or :: tokens')
        (filters ++ [filter])

end

/-- A row of tokens is an expression that stands for a filter. -/
def Derives (nesting : Nat) (tokens : List Token) (filter : Filter) : Prop :=
  ∃ filters, Alternatives nesting tokens filters ∧ Chained .or filters filter

/-- A row of tokens is an expression, nested no deeper than a limit, that stands for a filter. -/
def Denotes (limit : Nat) (tokens : List Token) (filter : Filter) : Prop :=
  ∃ nesting ≤ limit, Derives nesting tokens filter

/-! ## Values and chains -/

theorem value?_eq_some_iff {token : Token} {value : FilterValue} :
    token.value? = some value ↔ DenotesValue token value := by
  constructor
  · intro found
    cases token with
    | text content => cases found; exact .text content
    | number number => cases found; exact .number number
    | word content =>
      by_cases null : content = "null"
      · subst null
        cases found
        exact .null
      · rw [Token.value?, if_neg null] at found
        cases found
        exact .word null
    | _ => cases found
  · rintro (_ | _ | _ | other)
    · rfl
    · rfl
    · rfl
    · rw [Token.value?, if_neg other]

theorem chained_iff {operator : CombinationOperator} {filters : List Filter} {filter : Filter} :
    Chained operator filters filter ↔ filters ≠ [] ∧ Filter.joined operator filters = filter := by
  constructor
  · rintro (_ | _)
    · exact ⟨by simp, rfl⟩
    · exact ⟨by simp, rfl⟩
  · rintro ⟨nonempty, rfl⟩
    match filters with
    | [filter] => exact .alone filter
    | first :: second :: others => exact .several first second others

theorem chained_joined {operator : CombinationOperator} (filters : List Filter) (last : Filter) :
    Chained operator (filters ++ [last]) (Filter.joined operator (filters ++ [last])) :=
  chained_iff.mpr ⟨by simp, rfl⟩

/-- Negations in front of an operand are an operand again. -/
theorem Operand.negations {nesting : Nat} {tokens : List Token} {filter : Filter}
    (operand : Operand nesting tokens filter) (count : Nat) :
    Operand (nesting + count) (List.replicate count .negation ++ tokens)
      (Filter.negated count filter) := by
  induction count with
  | zero => exact operand
  | succ count ih => exact ih.negation

/-- An operand alone is an expression. -/
theorem Operand.derives {nesting : Nat} {tokens : List Token} {filter : Filter}
    (operand : Operand nesting tokens filter) : Derives nesting tokens filter :=
  ⟨[filter], .one (.one operand) (.alone filter), .alone filter⟩

/-- An expression in parentheses is an operand. -/
theorem Derives.group {nesting : Nat} {tokens : List Token} {filter : Filter}
    (derives : Derives nesting tokens filter) :
    Operand (nesting + 1) (.opening :: tokens ++ [.closing]) filter := by
  obtain ⟨filters, inside, chained⟩ := derives
  exact .group inside chained

/-! ## No expression holds a pattern match -/

mutual

theorem Operand.not_matching {nesting : Nat} {tokens : List Token} {filter : Filter} :
    Operand nesting tokens filter → .comparison .matching ∉ tokens
  | .comparison readable denotes => by
    cases denotes <;> simp [Ne.symm readable]
  | .negation operand => by
    have inside := operand.not_matching
    simp [inside]
  | .group inside _ => by
    have inside := inside.not_matching
    simp [inside]

theorem Operands.not_matching {nesting : Nat} {tokens : List Token} {filters : List Filter} :
    Operands nesting tokens filters → .comparison .matching ∉ tokens
  | .one operand => operand.not_matching
  | .more chain operand => by
    have front := chain.not_matching
    have back := operand.not_matching
    simp [front, back]

theorem Alternatives.not_matching {nesting : Nat} {tokens : List Token} {filters : List Filter} :
    Alternatives nesting tokens filters → .comparison .matching ∉ tokens
  | .one alternative _ => alternative.not_matching
  | .more chain alternative _ => by
    have front := chain.not_matching
    have back := alternative.not_matching
    simp [front, back]

end

/-! ## Chains from the front -/

/-- One more operand in front of a chain. -/
theorem Operands.cons {nesting nesting' : Nat} {tokens tokens' : List Token} {filters : List Filter}
    {filter : Filter} (first : Operand nesting' tokens' filter) :
    Operands nesting tokens filters →
      Operands (max nesting' nesting) (tokens' ++ .combination .and :: tokens) (filter :: filters)
  | .one operand => .more (.one first) operand
  | .more chain operand => by
    have longer := (chain.cons first).more operand
    simpa [Nat.max_assoc] using longer

/-- One more alternative in front of a chain. -/
theorem Alternatives.cons {nesting nesting' : Nat} {tokens tokens' : List Token}
    {filters operands : List Filter} {filter : Filter} (first : Operands nesting' tokens' operands)
    (joined : Chained .and operands filter) :
    Alternatives nesting tokens filters →
      Alternatives (max nesting' nesting) (tokens' ++ .combination .or :: tokens)
        (filter :: filters)
  | .one alternative chained => .more (.one first joined) alternative chained
  | .more chain alternative chained => by
    have longer := (chain.cons first joined).more alternative chained
    simpa [Nat.max_assoc] using longer

/-- A row of tokens is a chain of parts joined by an operator, each an operand of it. -/
def Row : CombinationOperator → Nat → List Token → List Filter → Prop
  | .and => Operands
  | .or => Alternatives

namespace Row

variable {operator : CombinationOperator} {nesting nesting' : Nat} {tokens tokens' : List Token}
  {filters : List Filter} {filter : Filter}

theorem one (operand : Operand nesting tokens filter) : Row operator nesting tokens [filter] := by
  cases operator with
  | and => exact .one operand
  | or => exact .one (.one operand) (.alone filter)

theorem cons (first : Operand nesting' tokens' filter) (row : Row operator nesting tokens filters) :
    Row operator (max nesting' nesting) (tokens' ++ .combination operator :: tokens)
      (filter :: filters) := by
  cases operator with
  | and => exact Operands.cons first row
  | or => exact Alternatives.cons (.one first) (.alone filter) row

theorem ne_nil (row : Row operator nesting tokens filters) : filters ≠ [] := by
  cases operator <;> cases row <;> simp

/-- A chain of one operator is an expression. -/
theorem derives (row : Row operator nesting tokens filters)
    (chained : Chained operator filters filter) : Derives nesting tokens filter := by
  cases operator with
  | and => exact ⟨[filter], .one row chained, .alone filter⟩
  | or => exact ⟨filters, row, chained⟩

end Row

end CartoStyle.Expression
