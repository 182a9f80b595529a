import CartoStyle.Proofs.Outcome

/-!
# First faults

A list that is gone through item by item is given up at the first item with a fault. `FirstFault`
says which one that is and where it stands, and `eq_error_iff_firstFault` finds it in the problem
of every loop that tells the places of its items.
-/

namespace CartoStyle

variable {α β γ ε ε' : Type}

/-- The first item of a list that has a fault, its place and its fault: no item before it has any.
-/
structure FirstFault (fault : α → ε → Prop) (items : List α) (place : Nat) (item : α)
    (problem : ε) : Prop where
  here : items[place]? = some item
  faulty : fault item problem
  first : ∀ earlier ∈ items.take place, ∀ other, ¬fault earlier other

variable {fault fault' : α → ε → Prop} {items tail : List α} {place : Nat} {head item : α}
  {problem : ε}

theorem firstFault_congr (same : ∀ item problem, fault item problem ↔ fault' item problem) :
    FirstFault fault items place item problem ↔ FirstFault fault' items place item problem := by
  have equal : fault = fault' :=
    funext fun item => funext fun problem => propext (same item problem)
  rw [equal]

theorem not_firstFault_nil : ¬FirstFault fault [] place item problem := by
  rintro ⟨here, -, -⟩
  cases here

/-- The first fault is that of the head or, if that has none, the first one of the tail. -/
theorem firstFault_cons_iff :
    FirstFault fault (head :: tail) place item problem ↔
      (place = 0 ∧ item = head ∧ fault head problem) ∨
        ∃ next, place = next + 1 ∧ (∀ other, ¬fault head other) ∧
          FirstFault fault tail next item problem := by
  constructor
  · rintro ⟨here, faulty, first⟩
    cases place with
    | zero =>
      cases here
      exact .inl ⟨rfl, rfl, faulty⟩
    | succ next =>
      rw [List.take_succ_cons, List.forall_mem_cons] at first
      exact .inr ⟨next, rfl, first.1, by simpa using here, faulty, first.2⟩
  · rintro (⟨rfl, rfl, faulty⟩ | ⟨next, rfl, sound, here, faulty, first⟩)
    · exact ⟨rfl, faulty, fun _ member => nomatch member⟩
    · refine ⟨by simpa using here, faulty, ?_⟩
      rw [List.take_succ_cons, List.forall_mem_cons]
      exact ⟨sound, first⟩

/-- There is a first fault if any item has one. -/
theorem exists_firstFault_iff :
    (∃ place item problem, FirstFault fault items place item problem) ↔
      ∃ item ∈ items, ∃ problem, fault item problem := by
  constructor
  · rintro ⟨place, item, problem, here, faulty, -⟩
    exact ⟨item, List.mem_of_getElem? here, problem, faulty⟩
  · intro found
    induction items with
    | nil => simp at found
    | cons head tail ih =>
      by_cases here : ∃ problem, fault head problem
      · obtain ⟨problem, faulty⟩ := here
        exact ⟨0, head, problem, firstFault_cons_iff.mpr (.inl ⟨rfl, rfl, faulty⟩)⟩
      · have sound : ∀ other, ¬fault head other := fun other faulty => here ⟨other, faulty⟩
        obtain ⟨item, member, problem, faulty⟩ := found
        rcases List.mem_cons.mp member with rfl | later
        · exact absurd faulty (sound problem)
        · obtain ⟨place, found, cause, first⟩ := ih ⟨item, later, problem, faulty⟩
          exact ⟨place + 1, found, cause, firstFault_cons_iff.mpr (.inr ⟨place, rfl, sound, first⟩)⟩

/-- The problem of a sequence of parts is that of the first part with one. -/
theorem bind_eq_error_iff_firstFault {first : Except ε α} {next : α → Except ε β} {part : ε → Prop}
    {parts : List (ε → Prop)} (here : ∀ problem, first = .error problem ↔ part problem)
    (there : ∀ value problem, next value = .error problem ↔
      ∃ place fault, FirstFault id parts place fault problem) {problem : ε} :
    first >>= next = .error problem ↔
      ∃ place fault, FirstFault id (part :: parts) place fault problem := by
  simp only [bind_eq_error_iff, there, firstFault_cons_iff, id_eq, ← here]
  constructor
  · rintro (failed | ⟨value, passed, place, fault, later⟩)
    · exact ⟨0, part, .inl ⟨rfl, rfl, failed⟩⟩
    · exact ⟨place + 1, fault, .inr ⟨place, rfl, exists_eq_ok_iff.mp ⟨value, passed⟩, later⟩⟩
  · rintro ⟨_, fault, ⟨-, -, failed⟩ | ⟨place, -, sound, later⟩⟩
    · exact .inl failed
    · obtain ⟨value, passed⟩ := exists_eq_ok_iff.mpr sound
      exact .inr ⟨value, passed, place, fault, later⟩

/-- The problem of a loop over the items of a list is that of the first item with one, told together
with its place. -/
theorem eq_error_iff_firstFault (run : Nat → List α → Except ε' β) (each : α → Except ε γ)
    (context : Nat → α → ε → ε') (join : γ → β → β)
    (done : ∀ index, ∃ result, run index [] = .ok result)
    (step : ∀ head ∈ items, ∀ index tail, run index (head :: tail) = do
      let value ← (each head).mapError (context index head)
      let result ← run (index + 1) tail
      return join value result)
    {index : Nat} {problem : ε'} :
    run index items = .error problem ↔ ∃ place item cause,
      FirstFault (fun item cause => each item = .error cause) items place item cause ∧
        problem = context (index + place) item cause := by
  induction items generalizing index with
  | nil =>
    obtain ⟨result, ended⟩ := done index
    simp [ended, not_firstFault_nil]
  | cons head tail ih =>
    have rest := @ih (fun item member => step item (List.mem_cons_of_mem _ member)) (index + 1)
    have shift (next : Nat) : index + 1 + next = index + (next + 1) := by omega
    rw [step head (List.mem_cons_self ..), bind_eq_error_iff, mapError_eq_error_iff]
    constructor
    · rintro (⟨cause, failed, rfl⟩ | ⟨value, here, there⟩)
      · exact ⟨0, head, cause, firstFault_cons_iff.mpr (.inl ⟨rfl, rfl, failed⟩), rfl⟩
      · have sound : ∀ other, each head ≠ .error other :=
          exists_eq_ok_iff.mp ⟨value, mapError_eq_ok_iff.mp here⟩
        rcases bind_eq_error_iff.mp there with failed | ⟨_, -, ended⟩
        · obtain ⟨place, item, cause, first, rfl⟩ := rest.mp failed
          rw [shift]
          exact ⟨_, item, cause, firstFault_cons_iff.mpr (.inr ⟨place, rfl, sound, first⟩), rfl⟩
        · cases ended
    · rintro ⟨place, item, cause, first, rfl⟩
      rcases firstFault_cons_iff.mp first with ⟨rfl, rfl, failed⟩ | ⟨next, rfl, sound, later⟩
      · exact .inl ⟨cause, failed, rfl⟩
      · obtain ⟨value, here⟩ := exists_eq_ok_iff.mpr sound
        have failed := rest.mpr ⟨next, item, cause, later, by rw [shift]⟩
        exact .inr ⟨value, mapError_eq_ok_iff.mpr here, bind_eq_error_iff.mpr (.inl failed)⟩

end CartoStyle
