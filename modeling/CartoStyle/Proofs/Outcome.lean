/-!
# Outcomes taken apart

A sequence succeeds if its parts do, one after another, and its problem is that of the first part
that has one. Another problem in the place of a problem makes no success. These laws take an outcome
apart.
-/

namespace CartoStyle

universe u

variable {ε ε' α β : Type u}

@[simp] theorem ok_bind (value : α) (next : α → Except ε β) :
    (Except.ok value : Except ε α) >>= next = next value := rfl

theorem exists_eq_ok_iff {outcome : Except ε α} :
    (∃ value, outcome = .ok value) ↔ ∀ problem, outcome ≠ .error problem := by
  cases outcome <;> simp

theorem bind_eq_ok_iff {first : Except ε α} {next : α → Except ε β} {result : β} :
    first >>= next = .ok result ↔ ∃ value, first = .ok value ∧ next value = .ok result := by
  constructor
  · intro done
    cases first with
    | error problem => cases done
    | ok value => exact ⟨value, rfl, done⟩
  · rintro ⟨value, rfl, done⟩
    exact done

theorem bind_eq_error_iff {first : Except ε α} {next : α → Except ε β} {problem : ε} :
    first >>= next = .error problem ↔
      first = .error problem ∨ ∃ value, first = .ok value ∧ next value = .error problem := by
  cases first with
  | error other => simp [bind, Except.bind]
  | ok value => simp

/-- What cannot fail has no part in the problem of a sequence. -/
theorem bind_eq_error_iff_of_exists_ok {first : Except ε α} {next : α → Except ε β}
    (sure : ∀ value, ∃ result, next value = .ok result) {problem : ε} :
    first >>= next = .error problem ↔ first = .error problem := by
  rw [bind_eq_error_iff]
  refine or_iff_left ?_
  rintro ⟨value, -, failed⟩
  exact exists_eq_ok_iff.mp (sure value) problem failed

theorem mapError_eq_ok_iff {context : ε → ε'} {outcome : Except ε α} {result : α} :
    outcome.mapError context = .ok result ↔ outcome = .ok result := by
  constructor
  · intro done
    cases outcome with
    | error problem => cases done
    | ok value =>
      cases done
      rfl
  · rintro rfl
    rfl

theorem mapError_eq_error_iff {context : ε → ε'} {outcome : Except ε α} {problem : ε'} :
    outcome.mapError context = .error problem ↔
      ∃ cause, outcome = .error cause ∧ context cause = problem := by
  constructor
  · intro failed
    cases outcome with
    | error cause => exact ⟨cause, rfl, Except.error.inj failed⟩
    | ok value => cases failed
  · rintro ⟨cause, rfl, rfl⟩
    rfl

theorem map_eq_ok_iff {change : α → β} {outcome : Except ε α} {result : β} :
    outcome.map change = .ok result ↔ ∃ value, outcome = .ok value ∧ change value = result := by
  constructor
  · intro done
    cases outcome with
    | error problem => cases done
    | ok value => exact ⟨value, rfl, Except.ok.inj done⟩
  · rintro ⟨value, rfl, rfl⟩
    rfl

theorem map_eq_error_iff {change : α → β} {outcome : Except ε α} {problem : ε} :
    outcome.map change = .error problem ↔ outcome = .error problem := by
  constructor
  · intro failed
    cases outcome with
    | error cause =>
      cases failed
      rfl
    | ok value => cases failed
  · rintro rfl
    rfl

theorem fmap_eq_error_iff {change : α → β} {outcome : Except ε α} {problem : ε} :
    change <$> outcome = .error problem ↔ outcome = .error problem :=
  map_eq_error_iff

end CartoStyle
