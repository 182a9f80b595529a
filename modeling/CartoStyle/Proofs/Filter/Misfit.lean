import CartoStyle.Proofs.Filter.Parse
import CartoStyle.Proofs.Outcome

/-!
# Where an expression goes wrong

Every state of the parser can be brought to the end of an expression (`State.drives_completion`), so
the tokens that led to it begin one. A token that the state refuses is therefore the first one that
no expression can have at its place, a `Misfit`, and where all tokens are taken the expression
merely ends too early. Both are said without a word on the parser, by what rows of tokens the
grammar has.

How deep a place is can be told from the tokens before it (`Awaits`). Where the limit is reached,
one more group or negation is a misfit whatever comes after it.
-/

namespace CartoStyle.Expression

/-! ## Beginnings of expressions -/

/-- A token that is all there is in some text. -/
def Token.IsSpelled (token : Token) : Prop := ∃ text, scan text = .ok [⟨token, 0⟩]

/-- With some tokens behind it that texts can hold, a row of tokens is an expression that is nested
within the limit. -/
def Begins (limit : Nat) (tokens : List Token) : Prop :=
  ∃ more filter, (∀ token ∈ more, token.IsSpelled) ∧ Denotes limit (tokens ++ more) filter

/-- A token behind others that no expression has at its place, though the others begin one. -/
structure Misfit (limit : Nat) (before : List Token) (token : Token) : Prop where
  begins : Begins limit before
  unfit : ∀ more filter, ¬ Denotes limit (before ++ token :: more) filter

/-- Behind some tokens an expression may go on with the operator of a comparison. -/
def AwaitsOperator (limit : Nat) (tokens : List Token) : Prop :=
  Begins limit (tokens ++ [.comparison .equal])

/-- Tokens behind which an operand is due, within so many levels and under so many negations of its
own. A group and the negations in front of it are levels for all that is in the group. -/
inductive Awaits : Nat → Nat → List Token → Prop
  | start : Awaits 0 0 []
  | negation {levels negations : Nat} {tokens : List Token}
      (awaits : Awaits levels negations tokens) :
      Awaits levels (negations + 1) (tokens ++ [.negation])
  | opening {levels negations : Nat} {tokens : List Token}
      (awaits : Awaits levels negations tokens) :
      Awaits (levels + negations + 1) 0 (tokens ++ [.opening])
  | combination {levels negations nesting : Nat} {tokens tokens' : List Token} {filter : Filter}
      (awaits : Awaits levels negations tokens) (operand : Operand nesting tokens' filter)
      (operator : CombinationOperator) :
      Awaits levels 0 (tokens ++ tokens' ++ [.combination operator])

/-! ## Every state can be completed -/

namespace State

/-- Tokens that bring an expression to its end. -/
def completion (state : State) : List Token :=
  (match state.mode with
    | .operand _ => [.property "a", .comparison .equal, .word "null"]
    | .operator _ _ => [.comparison .equal, .word "null"]
    | .value _ _ _ => [.word "null"]
    | .after _ => []) ++ List.replicate state.groups.length .closing

theorem isSpelled_of_mem_completion {state : State} {token : Token}
    (member : token ∈ state.completion) : token.IsSpelled := by
  have property : (Token.property "a").IsSpelled :=
    ⟨"[a]".toList, eq_ok_of_toOption (by decide +kernel)⟩
  have comparison : (Token.comparison .equal).IsSpelled :=
    ⟨"==".toList, eq_ok_of_toOption (by decide +kernel)⟩
  have value : (Token.word "null").IsSpelled :=
    ⟨"null".toList, eq_ok_of_toOption (by decide +kernel)⟩
  have closing : Token.closing.IsSpelled := ⟨")".toList, eq_ok_of_toOption (by decide +kernel)⟩
  rcases List.mem_append.mp member with own | behind
  · split at own
    · rcases own with _ | ⟨_, _ | ⟨_, _ | ⟨_, own⟩⟩⟩
      · exact property
      · exact comparison
      · exact value
      · cases own
    · rcases own with _ | ⟨_, _ | ⟨_, own⟩⟩
      · exact comparison
      · exact value
      · cases own
    · rcases own with _ | ⟨_, own⟩
      · exact value
      · cases own
    · cases own
  · rw [(List.mem_replicate.mp behind).2]
    exact closing

/-- Behind a complete operand, all groups that are open can be closed. -/
theorem drives_closings (groups : List Group) (chain : Chain) (operand : Filter) :
    ∃ chain' operand', Drives (List.replicate groups.length .closing)
      ⟨chain, groups, .after operand⟩ ⟨chain', [], .after operand'⟩ 0 := by
  induction groups generalizing chain operand with
  | nil => exact ⟨chain, operand, .nil _ (Nat.zero_le _)⟩
  | cons group groups ih =>
    obtain ⟨chain', operand', rest⟩ :=
      ih group.around (Filter.negated group.negations (chain.close operand))
    exact ⟨chain', operand', rest.cons fun _ => rfl⟩

theorem drives_completion (state : State) : ∃ chain operand,
    Drives state.completion state ⟨chain, [], .after operand⟩ 0 := by
  obtain ⟨chain, groups, mode⟩ := state
  cases mode with
  | operand negations =>
    obtain ⟨chain', operand', closings⟩ := drives_closings groups chain
      (Filter.negated negations (.comparison .equal "a" .null))
    refine ⟨chain', operand', ?_⟩
    exact .cons (fun _ => rfl) (.cons (fun _ => rfl) (.cons (fun _ => rfl) closings))
  | operator negations name =>
    obtain ⟨chain', operand', closings⟩ := drives_closings groups chain
      (Filter.negated negations (.comparison .equal name .null))
    exact ⟨chain', operand', .cons (fun _ => rfl) (.cons (fun _ => rfl) closings)⟩
  | value negations name operator =>
    obtain ⟨chain', operand', closings⟩ := drives_closings groups chain
      (Filter.negated negations (.comparison operator name .null))
    exact ⟨chain', operand', .cons (fun _ => rfl) closings⟩
  | after operand => exact drives_closings groups chain operand

end State

section Runs

variable {placed before : List Placed} {next : Placed} {state : State} {problem : Problem}

/-- Tokens that are taken begin an expression. -/
theorem begins_of_run (ran : placed.foldlM State.step State.start = .ok state) :
    Begins depthLimit (placed.map Placed.token) := by
  obtain ⟨chain, operand, drives⟩ := state.drives_completion
  let more : List Placed := state.completion.map fun token => ⟨token, 0⟩
  have tokens : more.map Placed.token = state.completion := by
    simp [more, Function.comp_def]
  have completed : more.foldlM State.step state = .ok ⟨chain, [], .after operand⟩ := by
    have ran := drives more tokens
    rwa [if_pos (Nat.zero_le _)] at ran
  have accepted : Expression.ofTokens 0 (placed ++ more) = .ok (chain.close operand) := by
    rw [Expression.ofTokens, List.foldlM_append, ran]
    simp only [ok_bind, completed]
    rfl
  have denotes := ofTokens_eq_ok_iff.mp accepted
  rw [List.map_append, tokens] at denotes
  exact ⟨state.completion, _, fun _ => State.isSpelled_of_mem_completion, denotes⟩

/-- Tokens that begin an expression are taken, and so is each of them. -/
theorem exists_step_of_denotes {more : List Token} {filter : Filter}
    (denotes : Denotes depthLimit (before.map Placed.token ++ next.token :: more) filter)
    (ran : before.foldlM State.step State.start = .ok state) :
    ∃ target, state.step next = .ok target := by
  let placed := before ++ next :: more.map fun token => ⟨token, 0⟩
  have tokens : placed.map Placed.token = before.map Placed.token ++ next.token :: more := by
    simp [placed, Function.comp_def]
  have accepted : Expression.ofTokens 0 placed = .ok filter :=
    ofTokens_eq_ok_iff.mpr (by rwa [tokens])
  rw [Expression.ofTokens] at accepted
  obtain ⟨last, whole, -⟩ := bind_eq_ok_iff.mp accepted
  rw [List.foldlM_append, ran, ok_bind, List.foldlM_cons] at whole
  obtain ⟨target, taken, -⟩ := bind_eq_ok_iff.mp whole
  exact ⟨target, taken⟩

/-- A token that is refused is a misfit behind those that were taken. -/
theorem misfit_of_step (ran : before.foldlM State.step State.start = .ok state)
    (refused : state.step next = .error problem) :
    Misfit depthLimit (before.map Placed.token) next.token where
  begins := begins_of_run ran
  unfit _ _ denotes := by
    obtain ⟨target, taken⟩ := exists_step_of_denotes denotes ran
    rw [refused] at taken
    cases taken

/-- A run that fails takes some tokens and refuses the next one. -/
theorem exists_refused {source : State}
    (failed : placed.foldlM State.step source = .error problem) :
    ∃ before next after state, placed = before ++ next :: after ∧
      before.foldlM State.step source = .ok state ∧ state.step next = .error problem := by
  induction placed generalizing source with
  | nil => cases failed
  | cons next placed ih =>
    rw [List.foldlM_cons] at failed
    rcases bind_eq_error_iff.mp failed with refused | ⟨middle, taken, failed⟩
    · exact ⟨[], next, placed, source, rfl, rfl, refused⟩
    · obtain ⟨before, last, after, state, rfl, ran, refused⟩ := ih failed
      refine ⟨next :: before, last, after, state, rfl, ?_, refused⟩
      rw [List.foldlM_cons, taken]
      exact ran

/-! ## Which problem a misfit is -/

/-- The parser waits for the operator of a comparison. -/
def Mode.isOperator : Mode → Bool
  | .operator _ _ => true
  | _ => false

theorem awaitsOperator_iff (ran : before.foldlM State.step State.start = .ok state) :
    AwaitsOperator depthLimit (before.map Placed.token) ↔ state.mode.isOperator := by
  constructor
  · rintro ⟨more, filter, -, denotes⟩
    have denotes : Denotes depthLimit (before.map Placed.token ++
        (⟨.comparison .equal, 0⟩ : Placed).token :: more) filter := by simpa using denotes
    obtain ⟨target, taken⟩ := exists_step_of_denotes denotes ran
    cases advances_of_step taken with
    | comparison => rfl
    | value _ _ _ _ _ denotes => cases denotes
  · intro operator
    obtain ⟨chain, groups, mode⟩ := state
    cases mode with
    | operator negations name =>
      let longer : List Placed := before ++ [⟨.comparison .equal, 0⟩]
      have ran : longer.foldlM State.step State.start =
          .ok ⟨chain, groups, .value negations name .equal⟩ := by
        rw [List.foldlM_append, ran]
        rfl
      simpa [AwaitsOperator, longer] using begins_of_run ran
    | _ => cases operator

/-- A pattern match in the place of an operator is unsupported; anything else that is refused is
malformed, and each of them where it stands. -/
theorem step_eq_error (refused : state.step next = .error problem) :
    if next.token = .comparison .matching ∧ state.mode.isOperator then
      problem = .unsupportedOperator .matching next.position
    else ∃ cause, problem = .malformed next.position cause := by
  obtain ⟨chain, groups, mode⟩ := state
  obtain ⟨token, position⟩ := next
  cases mode with
  | operand negations =>
    rw [if_neg (fun both => by cases both.2)]
    cases token with
    | negation =>
      rw [step_negation] at refused
      split at refused
      · cases refused
      · exact ⟨.tooDeep, (Except.error.inj refused).symm⟩
    | opening =>
      rw [step_opening] at refused
      split at refused
      · cases refused
      · exact ⟨.tooDeep, (Except.error.inj refused).symm⟩
    | property name => cases refused
    | _ => exact ⟨_, (Except.error.inj refused).symm⟩
  | operator negations name =>
    cases token with
    | comparison operator =>
      simp only [State.step] at refused
      split at refused
      · cases refused
      · rename_i unreadable
        have matching : operator = .matching := by
          simpa [ComparisonOperator.isReadable] using unreadable
        subst matching
        rw [if_pos ⟨rfl, rfl⟩]
        exact (Except.error.inj refused).symm
    | _ =>
      rw [if_neg (fun both => by cases both.1)]
      exact ⟨_, (Except.error.inj refused).symm⟩
  | value negations name operator =>
    rw [if_neg (fun both => by cases both.2)]
    simp only [State.step] at refused
    split at refused
    · cases refused
    · exact ⟨_, (Except.error.inj refused).symm⟩
  | after operand =>
    rw [if_neg (fun both => by cases both.2)]
    cases token with
    | combination operator => cases operator <;> cases refused
    | closing =>
      cases groups with
      | nil => exact ⟨_, (Except.error.inj refused).symm⟩
      | cons group groups => cases refused
    | _ => cases groups <;> exact ⟨_, (Except.error.inj refused).symm⟩

theorem finish_eq_error {size : Nat} (unfinished : state.finish size = .error problem) :
    ∃ wanted, problem = .malformed size (.unexpected wanted none) := by
  obtain ⟨chain, groups, mode⟩ := state
  cases mode with
  | after operand =>
    cases groups with
    | nil => cases unfinished
    | cons group groups => exact ⟨_, (Except.error.inj unfinished).symm⟩
  | _ => exact ⟨_, (Except.error.inj unfinished).symm⟩

/-! ## Depth -/

/-- A run over some tokens and one more is a run over those and a step. -/
theorem exists_step_of_run_concat {source : State} {tokens : List Token} {token : Token}
    (same : placed.map Placed.token = tokens ++ [token])
    (ran : placed.foldlM State.step source = .ok state) :
    ∃ (front : List Placed) (middle : State) (position : Nat), front.map Placed.token = tokens ∧
      front.foldlM State.step source = .ok middle ∧ middle.step ⟨token, position⟩ = .ok state := by
  obtain ⟨front, last, rfl, same_front, same_last⟩ := List.map_eq_append_iff.mp same
  obtain ⟨⟨token, position⟩, rfl, rfl⟩ := List.map_eq_singleton_iff.mp same_last
  rw [List.foldlM_append] at ran
  obtain ⟨middle, before, ran⟩ := bind_eq_ok_iff.mp ran
  obtain ⟨target, taken, ran⟩ := bind_eq_ok_iff.mp ran
  cases ran
  exact ⟨front, middle, position, same_front, before, taken⟩

/-- The tokens before a place say how deep the parser is there. -/
theorem Awaits.run {levels negations : Nat} {tokens : List Token}
    (awaits : Awaits levels negations tokens) (same : placed.map Placed.token = tokens)
    (ran : placed.foldlM State.step State.start = .ok state) :
    levels + negations ≤ depthLimit ∧ ∃ chain groups,
      State.depth groups 0 = levels ∧ state = ⟨chain, groups, .operand negations⟩ := by
  induction awaits generalizing placed state with
  | start =>
    obtain rfl := List.map_eq_nil_iff.mp same
    cases ran
    exact ⟨Nat.zero_le _, .empty, [], rfl, rfl⟩
  | negation awaits ih =>
    obtain ⟨front, middle, position, same, before, taken⟩ := exists_step_of_run_concat same ran
    obtain ⟨-, chain, groups, rfl, rfl⟩ := ih same before
    rw [step_negation, depth_eq_add] at taken
    split at taken
    · rename_i room
      cases taken
      exact ⟨room, chain, groups, rfl, rfl⟩
    · cases taken
  | opening awaits ih =>
    obtain ⟨front, middle, position, same, before, taken⟩ := exists_step_of_run_concat same ran
    obtain ⟨-, chain, groups, rfl, rfl⟩ := ih same before
    rw [step_opening, depth_eq_add] at taken
    split at taken
    · rename_i room
      cases taken
      refine ⟨room, .empty, _, ?_, rfl⟩
      rw [depth_cons, depth_eq_add]
    · cases taken
  | combination awaits operand operator ih =>
    obtain ⟨most, joining, position, same, ran, taken⟩ := exists_step_of_run_concat same ran
    obtain ⟨front, inner, rfl, same_front, same_inner⟩ := List.map_eq_append_iff.mp same
    rw [List.foldlM_append] at ran
    obtain ⟨source, before, ran⟩ := bind_eq_ok_iff.mp ran
    obtain ⟨fits, chain, groups, rfl, rfl⟩ := ih same_front before
    -- The operand leads back to the level it began at, since it was taken.
    have drives := operand.drives chain groups _ (by rw [depth_eq_add]; exact fits)
      inner same_inner
    rw [ran] at drives
    split at drives
    · cases drives
      refine ⟨by omega, ?_⟩
      cases operator <;> cases taken <;> exact ⟨_, groups, rfl, rfl⟩
    · obtain ⟨position, stopped⟩ := drives
      cases stopped

/-- Where the limit is reached, one more group or negation is too deep. -/
theorem step_eq_tooDeep {levels negations : Nat}
    (awaits : Awaits levels negations (before.map Placed.token))
    (reached : levels + negations = depthLimit)
    (ran : before.foldlM State.step State.start = .ok state)
    (deeper : next.token = .negation ∨ next.token = .opening) :
    state.step next = .error (.malformed next.position .tooDeep) := by
  obtain ⟨-, chain, groups, rfl, rfl⟩ := awaits.run rfl ran
  obtain ⟨token, position⟩ := next
  have full : ¬ State.depth groups negations < depthLimit := by
    rw [depth_eq_add]
    omega
  rcases deeper with rfl | rfl <;> exact if_neg full

/-- Tokens that begin an expression are taken. -/
theorem exists_run_of_begins (begins : Begins depthLimit (placed.map Placed.token)) :
    ∃ state, placed.foldlM State.step State.start = .ok state := by
  cases whole : placed.foldlM State.step State.start with
  | ok state => exact ⟨state, rfl⟩
  | error problem =>
    obtain ⟨before, next, after, state, rfl, ran, refused⟩ := exists_refused whole
    obtain ⟨more, filter, -, denotes⟩ := begins
    refine absurd ?_ ((misfit_of_step ran refused).unfit (after.map Placed.token ++ more) filter)
    simpa using denotes

end Runs

/-! ## Errors -/

/-- An expression that is refused is refused at the first token that cannot be right, or at its end
if it merely ends too early. Only a pattern match where an operator is expected is unsupported,
everything else is malformed. The two hundred and fifty-seventh group or negation that is open at
once is refused where it stands, whatever comes after it. -/
theorem parse_error_at_first_misfit {text : String} {placed : List Placed}
    (scanned : scan text.toList = .ok placed) :
    (∀ problem, parse text = .error problem →
      (∃ before next after, placed = before ++ next :: after ∧
        Misfit 256 (before.map Placed.token) next.token ∧
        (next.token = .comparison .matching ∧ AwaitsOperator 256 (before.map Placed.token) →
          problem = .unsupportedOperator .matching next.position) ∧
        (¬ (next.token = .comparison .matching ∧ AwaitsOperator 256 (before.map Placed.token)) →
          ∃ cause, problem = .malformed next.position cause)) ∨
      (Begins 256 (placed.map Placed.token) ∧
        ∃ cause, problem = .malformed (Text.byteLength text.toList) cause)) ∧
    ∀ before next after levels negations, placed = before ++ next :: after →
      Begins 256 (before.map Placed.token) →
      Awaits levels negations (before.map Placed.token) → levels + negations = 256 →
      next.token = .negation ∨ next.token = .opening →
      parse text = .error (.malformed next.position .tooDeep) := by
  rw [parse_of_scan scanned, Expression.ofTokens]
  constructor
  · intro problem failed
    rcases bind_eq_error_iff.mp failed with stopped | ⟨state, ran, unfinished⟩
    · obtain ⟨before, next, after, state, rfl, ran, refused⟩ := exists_refused stopped
      have kind := step_eq_error refused
      have awaits := awaitsOperator_iff ran
      refine .inl ⟨before, next, after, rfl, misfit_of_step ran refused, ?_, ?_⟩
      · intro unsupported
        rwa [if_pos (unsupported.imp_right awaits.mp)] at kind
      · intro other
        rwa [if_neg fun both => other (both.imp_right awaits.mpr)] at kind
    · obtain ⟨wanted, rfl⟩ := finish_eq_error unfinished
      exact .inr ⟨begins_of_run ran, _, rfl⟩
  · rintro before next after levels negations rfl begins awaits reached deeper
    obtain ⟨state, ran⟩ := exists_run_of_begins begins
    have refused := step_eq_tooDeep awaits reached ran deeper
    rw [List.foldlM_append, ran, ok_bind, List.foldlM_cons, refused]
    rfl

theorem parse_error_at_pattern_match :
    let placed : List Placed := [⟨.negation, 0⟩, ⟨.opening, 4⟩, ⟨.property "a", 5⟩,
      ⟨.comparison .equal, 9⟩, ⟨.text "x", 11⟩, ⟨.combination .or, 15⟩, ⟨.property "b", 18⟩,
      ⟨.comparison .matching, 22⟩, ⟨.text "y", 25⟩]
    scan "not ([a] = 'x' or [b] *= 'y'".toList = .ok placed ∧
    parse "not ([a] = 'x' or [b] *= 'y'" = .error (.unsupportedOperator .matching 22) ∧
    ∃ before after, placed = before ++ ⟨.comparison .matching, 22⟩ :: after ∧
      Misfit 256 (before.map Placed.token) (.comparison .matching) := by
  intro placed
  have scanned : scan "not ([a] = 'x' or [b] *= 'y'".toList = .ok placed :=
    eq_ok_of_toOption (by decide +kernel)
  have refused : parse "not ([a] = 'x' or [b] *= 'y'" =
      .error (.unsupportedOperator .matching 22) := (parse_of_scan scanned).trans rfl
  refine ⟨scanned, refused, ?_⟩
  rcases (parse_error_at_first_misfit scanned).1 _ refused with
    ⟨before, ⟨token, position⟩, after, parts, misfit, unsupported, malformed⟩ | ⟨-, _, malformed⟩
  · by_cases matching :
      token = .comparison .matching ∧ AwaitsOperator 256 (before.map Placed.token)
    · cases unsupported matching
      obtain rfl := matching.1
      exact ⟨before, after, parts, misfit⟩
    · obtain ⟨_, malformed⟩ := malformed matching
      cases malformed
  · cases malformed

end CartoStyle.Expression
