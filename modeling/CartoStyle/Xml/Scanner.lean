/-!
# Scanners

A scanner reads something off the front of a text and says what is left, or fails. What is left is
never longer than the text, by the type of scanners, and a step that takes something whenever it
says something can be repeated until it says nothing (`Scanner.unfold`). `Scanner.run_bind` opens a
scanner that is made of steps, and `Scanner.run_unfold` opens a repetition.
-/

namespace CartoStyle.Xml

/-- Something read off the front of a text. -/
structure Scanner (α : Type) where
  run : List Char → Option (α × List Char)
  shrinks {text rest : List Char} {value : α} :
    run text = some (value, rest) → rest.length ≤ text.length

namespace Scanner

variable {α β σ : Type}

/-- Reads nothing. -/
protected def pure (value : α) : Scanner α where
  run text := some (value, text)
  shrinks found := by cases found; exact Nat.le_refl _

/-- Reads two things, the second one depending on the first. -/
protected def bind (first : Scanner α) (next : α → Scanner β) : Scanner β where
  run text := (first.run text).bind fun (value, rest) => (next value).run rest
  shrinks found := by
    obtain ⟨⟨value, rest⟩, one, two⟩ := Option.bind_eq_some_iff.mp found
    exact Nat.le_trans ((next value).shrinks two) (first.shrinks one)

instance : Monad Scanner where
  pure := Scanner.pure
  bind := Scanner.bind

@[simp] theorem run_pure (value : α) (text : List Char) :
    (pure value : Scanner α).run text = some (value, text) := rfl

@[simp] theorem run_bind (first : Scanner α) (next : α → Scanner β) (text : List Char) :
    (first >>= next).run text = (first.run text).bind fun (value, rest) => (next value).run rest :=
  rfl

/-- Reads nothing and fails. -/
def fail : Scanner α where
  run _ := none
  shrinks found := by cases found

/-- Reads nothing and fails unless a condition holds. -/
def require (condition : Bool) : Scanner Unit := if condition then pure () else fail

/-- What is left, without reading it. -/
def rest : Scanner (List Char) where
  run text := some (text, text)
  shrinks found := by cases found; exact Nat.le_refl _

/-- Whether nothing is left. -/
def atEnd : Scanner Bool := return (← rest).isEmpty

/-- Whether a word is next, without reading it. -/
def sees (word : String) : Scanner Bool := return word.toList.isPrefixOf (← rest)

/-- Reads as many characters as there are in a word. -/
def skip (word : String) : Scanner Unit where
  run text := some ((), text.drop word.toList.length)
  shrinks found := by cases found; simp

/-- Reads a word if it is next. -/
def takes (word : String) : Scanner Bool := do
  let here ← sees word
  if here then skip word
  return here

/-- Reads a word, which must be next. -/
def literal (word : String) : Scanner Unit := do require (← takes word)

/-- Reads characters as long as they pass a test. -/
def takeWhile (test : Char → Bool) : Scanner (List Char) where
  run text := some (text.takeWhile test, text.dropWhile test)
  shrinks {text _ _} found := by
    cases found
    have parts := congrArg List.length (List.takeWhile_append_dropWhile (p := test) (l := text))
    simp only [List.length_append] at parts
    omega

/-- Reads one character, which must pass a test. -/
def one (test : Char → Bool) : Scanner Char where
  run
    | c :: text => if test c then some (c, text) else none
    | [] => none
  shrinks {text _ _} found := by
    cases text with
    | nil => cases found
    | cons c text =>
      by_cases passed : test c
      · simp only [passed] at found; cases found; simp
      · simp [passed] at found

/-- The characters before the first occurrence of a word and those after it. -/
def splitAtWord? (word : List Char) : List Char → Option (List Char × List Char)
  | [] => if word.isEmpty then some ([], []) else none
  | c :: text =>
    if word.isPrefixOf (c :: text) then some ([], (c :: text).drop word.length)
    else (splitAtWord? word text).map fun (before, after) => (c :: before, after)

theorem length_splitAtWord?_le {word text before after : List Char}
    (found : splitAtWord? word text = some (before, after)) : after.length ≤ text.length := by
  induction text generalizing before after with
  | nil =>
    simp only [splitAtWord?] at found
    split at found
    · cases found; simp
    · cases found
  | cons c text ih =>
    simp only [splitAtWord?] at found
    split at found
    · cases found; simp only [List.length_drop]; omega
    · obtain ⟨⟨inner, rest⟩, one, same⟩ := Option.map_eq_some_iff.mp found
      cases same
      exact Nat.le_succ_of_le (ih one)

/-- Reads up to the first occurrence of a word, and the word. -/
def takeUntil (word : String) : Scanner (List Char) where
  run := splitAtWord? word.toList
  shrinks := length_splitAtWord?_le

/-! ## Progress -/

/-- Whatever is read takes at least one character. -/
def Strict (scanner : Scanner α) : Prop :=
  ∀ {text rest : List Char} {value : α}, scanner.run text = some (value, rest) →
    rest.length < text.length

/-- Whatever is read takes at least one character, if it is something. -/
def Advances (scanner : Scanner (Option α)) : Prop :=
  ∀ {text rest : List Char} {value : α}, scanner.run text = some (some value, rest) →
    rest.length < text.length

theorem strict_one (test : Char → Bool) : (one test).Strict := by
  intro text rest value found
  cases text with
  | nil => cases found
  | cons c text =>
    by_cases passed : test c
    · simp only [one, passed] at found; cases found; simp
    · simp [one, passed] at found

theorem strict_bind_left {first : Scanner α} (strict : first.Strict) (next : α → Scanner β) :
    (first >>= next).Strict := by
  intro text rest value found
  obtain ⟨⟨inner, middle⟩, one, two⟩ := Option.bind_eq_some_iff.mp found
  exact Nat.lt_of_le_of_lt ((next inner).shrinks two) (strict one)

theorem strict_bind_right (first : Scanner α) {next : α → Scanner β}
    (strict : ∀ value, (next value).Strict) : (first >>= next).Strict := by
  intro text rest value found
  obtain ⟨⟨inner, middle⟩, one, two⟩ := Option.bind_eq_some_iff.mp found
  exact Nat.lt_of_lt_of_le (strict inner two) (first.shrinks one)

theorem strict_ite {condition : Prop} [Decidable condition] {yes no : Scanner α}
    (strictYes : yes.Strict) (strictNo : no.Strict) : (if condition then yes else no).Strict := by
  split <;> assumption

theorem run_takes (word : String) (text : List Char) :
    (takes word).run text =
      if word.toList.isPrefixOf text then some (true, text.drop word.toList.length)
      else some (false, text) := by
  simp only [takes, sees, rest, skip, run_bind]
  by_cases here : word.toList.isPrefixOf text <;> simp [here]

theorem strict_literal {word : String} (nonempty : word.toList ≠ []) : (literal word).Strict := by
  intro text rest value found
  simp only [literal, run_bind, run_takes] at found
  split at found
  · rename_i here
    simp only [Option.bind_some, require, if_true] at found
    cases found
    have shape := (List.isPrefixOf_iff_prefix.mp here).length_le
    have := List.length_pos_iff.mpr nonempty
    simp only [List.length_drop]
    omega
  · simp [require, fail] at found

theorem length_splitAtWord?_lt {word text before after : List Char} (nonempty : word ≠ [])
    (found : splitAtWord? word text = some (before, after)) : after.length < text.length := by
  induction text generalizing before after with
  | nil => simp [splitAtWord?, nonempty] at found
  | cons c text ih =>
    simp only [splitAtWord?] at found
    split at found
    · cases found
      have := List.length_pos_iff.mpr nonempty
      simp only [List.length_drop, List.length_cons]
      omega
    · obtain ⟨⟨inner, rest⟩, one, same⟩ := Option.map_eq_some_iff.mp found
      cases same
      exact Nat.lt_succ_of_lt (ih one)

theorem strict_takeUntil {word : String} (nonempty : word.toList ≠ []) : (takeUntil word).Strict :=
  fun found => length_splitAtWord?_lt nonempty found

theorem advances_none : (pure none : Scanner (Option α)).Advances := fun found => by cases found

theorem advances_of_strict {scanner : Scanner (Option α)} (strict : scanner.Strict) :
    scanner.Advances := fun found => strict found

theorem advances_bind (first : Scanner α) {next : α → Scanner (Option β)}
    (advances : ∀ value, (next value).Advances) : (first >>= next).Advances := by
  intro text rest value found
  obtain ⟨⟨inner, middle⟩, one, two⟩ := Option.bind_eq_some_iff.mp found
  exact Nat.lt_of_lt_of_le (advances inner two) (first.shrinks one)

theorem advances_ite {condition : Prop} [Decidable condition] {yes no : Scanner (Option α)}
    (advancesYes : yes.Advances) (advancesNo : no.Advances) :
    (if condition then yes else no).Advances := by
  split <;> assumption

/-- A branch after a word that may be next: it is strict where the word is. -/
theorem advances_takes {word : String} (nonempty : word.toList ≠ [])
    {next : Bool → Scanner (Option α)}
    (advancesElse : (next false).Advances) : (takes word >>= next).Advances := by
  intro text rest value found
  simp only [run_bind, run_takes] at found
  split at found
  · rename_i here
    have shape := (List.isPrefixOf_iff_prefix.mp here).length_le
    have := List.length_pos_iff.mpr nonempty
    have := (next true).shrinks found
    simp only [List.length_drop] at this
    omega
  · exact advancesElse found

/-! ## Repetition -/

/-- Repeats a step that advances until it says nothing. -/
def unfoldFrom (step : σ → Scanner (Option (α × σ))) (advances : ∀ state, (step state).Advances)
    (state : σ) (text : List Char) : Option (List α × List Char) :=
  match _found : (step state).run text with
  | none => none
  | some (none, rest) => some ([], rest)
  | some (some (value, next), rest) =>
    (unfoldFrom step advances next rest).map fun (values, after) => (value :: values, after)
termination_by text.length
decreasing_by exact advances state _found

theorem length_unfoldFrom_le (step : σ → Scanner (Option (α × σ)))
    (advances : ∀ state, (step state).Advances) (state : σ) (text : List Char)
    {values : List α} {after : List Char}
    (found : unfoldFrom step advances state text = some (values, after)) :
    after.length ≤ text.length := by
  fun_induction unfoldFrom step advances state text generalizing values after with
  | case1 => cases found
  | case2 state text rest said => cases found; exact (step state).shrinks said
  | case3 state text value next rest said ih =>
    obtain ⟨⟨inner, left⟩, one, same⟩ := Option.map_eq_some_iff.mp found
    cases same
    exact Nat.le_trans (ih one) (Nat.le_of_lt (advances state said))

/-- Repeats a step that depends on a state until it says nothing. -/
def unfold (step : σ → Scanner (Option (α × σ))) (advances : ∀ state, (step state).Advances)
    (state : σ) : Scanner (List α) where
  run := unfoldFrom step advances state
  shrinks := length_unfoldFrom_le step advances state _

/-- One repetition, and the others. -/
theorem run_unfold (step : σ → Scanner (Option (α × σ))) (advances : ∀ state, (step state).Advances)
    (state : σ) (text : List Char) :
    (unfold step advances state).run text =
      match (step state).run text with
      | none => none
      | some (none, rest) => some ([], rest)
      | some (some (value, next), rest) =>
        ((unfold step advances next).run rest).map
          fun (values, after) => (value :: values, after) := by
  change unfoldFrom step advances state text = _
  rw [unfoldFrom]
  split <;> simp_all [unfold]

/-- A step in the form of one that depends on a state. -/
def stateless (step : Scanner (Option α)) : Scanner (Option (α × Unit)) := do
  return (← step).map fun value => (value, ())

theorem advances_stateless {step : Scanner (Option α)} (advances : step.Advances) :
    (stateless step).Advances := by
  intro text rest value found
  obtain ⟨⟨inner, middle⟩, one, two⟩ := Option.bind_eq_some_iff.mp found
  cases inner with
  | none => cases two
  | some inner => cases two; exact advances one

/-- Repeats a step that advances until it says nothing. -/
def many (step : Scanner (Option α)) (advances : step.Advances) : Scanner (List α) :=
  unfold (fun () => stateless step) (fun () => advances_stateless advances) ()

end Scanner

end CartoStyle.Xml
