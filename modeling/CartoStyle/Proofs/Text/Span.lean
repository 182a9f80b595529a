import CartoStyle.Text.Basic

/-!
# Runs of characters

Readers take characters of a class as long as there are some. A run ends where the text behind it
does not go on with the class (`Stops`), and then taking and dropping give back the run and the text
behind it. Trimming is one such run at each end: it leaves a text alone that has no blank there
(`trim_of_stops`), and blanks put around a text make no difference to it.
-/

namespace CartoStyle.Text

/-- What holds of the characters of a text is decided one by one, not for every character there is.
-/
instance decidableForallMem (p : Char → Prop) [DecidablePred p] (text : List Char) :
    Decidable (∀ c ∈ text, p c) := List.decidableBAll p text

/-- No character of a class is next. -/
def Stops (p : Char → Bool) (text : List Char) : Prop := ∀ c ∈ text.head?, p c = false

section Runs

variable {p : Char → Bool} {run text : List Char} {c : Char}

@[simp] theorem stops_nil : Stops p [] := by simp [Stops]

@[simp] theorem stops_cons : Stops p (c :: text) ↔ p c = false := by simp [Stops]

theorem takeWhile_of_stops (stop : Stops p text) : text.takeWhile p = [] := by
  cases text with
  | nil => rfl
  | cons c text => simp [stops_cons.mp stop]

theorem dropWhile_of_stops (stop : Stops p text) : text.dropWhile p = text := by
  cases text with
  | nil => rfl
  | cons c text => simp [stops_cons.mp stop]

theorem takeWhile_append_of_stops (inside : ∀ c ∈ run, p c) (stop : Stops p text) :
    (run ++ text).takeWhile p = run := by
  rw [List.takeWhile_append_of_pos inside, takeWhile_of_stops stop, List.append_nil]

theorem dropWhile_append_of_stops (inside : ∀ c ∈ run, p c) (stop : Stops p text) :
    (run ++ text).dropWhile p = text := by
  rw [List.dropWhile_append_of_pos inside, dropWhile_of_stops stop]

/-- What a run takes from the front of a text does not change if the text behind it does not go on
with the class. -/
theorem takeWhile_append (stop : Stops p text) (front : List Char) :
    (front ++ text).takeWhile p = front.takeWhile p := by
  induction front with
  | nil => exact takeWhile_of_stops stop
  | cons c front ih =>
    rw [List.cons_append, List.takeWhile_cons, List.takeWhile_cons, ih]

theorem dropWhile_append (stop : Stops p text) (front : List Char) :
    (front ++ text).dropWhile p = front.dropWhile p ++ text := by
  induction front with
  | nil => exact dropWhile_of_stops stop
  | cons c front ih =>
    rw [List.cons_append, List.dropWhile_cons, List.dropWhile_cons, ih]
    split <;> rfl

theorem takeWhile_of_forall (inside : ∀ c ∈ run, p c) : run.takeWhile p = run := by
  simpa using takeWhile_append_of_stops inside stops_nil

theorem dropWhile_of_forall (inside : ∀ c ∈ run, p c) : run.dropWhile p = [] := by
  simpa using dropWhile_append_of_stops inside stops_nil

theorem stops_dropWhile (text : List Char) : Stops p (text.dropWhile p) := by
  induction text with
  | nil => simp
  | cons c text ih =>
    by_cases next : p c
    · simpa [next] using ih
    · simp [next]

theorem stops_append_of_ne_nil (nonempty : run ≠ []) : Stops p (run ++ text) ↔ Stops p run := by
  cases run with
  | nil => exact absurd rfl nonempty
  | cons c run => simp

end Runs

/-! ## Space -/

section Space

variable {space text : List Char}

theorem skipSpace_of_stops (stop : Stops isSpace text) : skipSpace text = text :=
  dropWhile_of_stops stop

theorem skipSpace_append (all : ∀ c ∈ space, isSpace c) (stop : Stops isSpace text) :
    skipSpace (space ++ text) = text := dropWhile_append_of_stops all stop

/-- A text is the space at its front and what is left without it. -/
theorem exists_eq_append_skipSpace (text : List Char) :
    ∃ space, (∀ c ∈ space, isSpace c) ∧ text = space ++ skipSpace text :=
  ⟨text.takeWhile isSpace, fun c => List.all_eq_true.mp List.all_takeWhile c,
    List.takeWhile_append_dropWhile.symm⟩

theorem isSpace_of_skipSpace_eq_nil (nothing : skipSpace text = []) : ∀ c ∈ text, isSpace c := by
  obtain ⟨space, all, shape⟩ := exists_eq_append_skipSpace text
  rw [nothing, List.append_nil] at shape
  exact shape ▸ all

end Space

/-! ## Trimming -/

/-- A text without blanks at its ends stays as it is. -/
theorem trim_of_stops {text : List Char} (front : Stops isBlank text)
    (back : Stops isBlank text.reverse) : trim text = text := by
  rw [trim, dropWhile_of_stops front, dropWhile_of_stops back, List.reverse_reverse]

theorem trim_of_forall {text : List Char} (inside : ∀ c ∈ text, isBlank c = false) :
    trim text = text := by
  have stops (part : List Char) (within : part ⊆ text) : Stops isBlank part := by
    intro c next
    exact inside c (within (List.mem_of_mem_head? next))
  exact trim_of_stops (stops _ (List.Subset.refl _)) (stops _ (by simp))

/-- What trimming takes away behind the blanks at the front. -/
theorem trim_append_takeWhile (text : List Char) :
    trim text ++ ((text.dropWhile isBlank).reverse.takeWhile isBlank).reverse =
      text.dropWhile isBlank := by
  rw [trim, ← List.reverse_append, List.takeWhile_append_dropWhile, List.reverse_reverse]

/-- A text is what trimming leaves between blanks. -/
theorem exists_eq_append_trim (text : List Char) : ∃ front back, (∀ c ∈ front, isBlank c) ∧
    (∀ c ∈ back, isBlank c) ∧ text = front ++ (trim text ++ back) := by
  refine ⟨text.takeWhile isBlank, ((text.dropWhile isBlank).reverse.takeWhile isBlank).reverse,
    ?_, ?_, ?_⟩
  · exact fun c member => List.all_eq_true.mp List.all_takeWhile c member
  · intro c member
    exact List.all_eq_true.mp List.all_takeWhile c (List.mem_reverse.mp member)
  · rw [trim_append_takeWhile, List.takeWhile_append_dropWhile]

theorem stops_trim (text : List Char) : Stops isBlank (trim text) := by
  have front : Stops isBlank (text.dropWhile isBlank) := stops_dropWhile text
  have parts := trim_append_takeWhile text
  by_cases blank : trim text = []
  · simp [blank]
  · rw [← parts, stops_append_of_ne_nil blank] at front
    exact front

theorem stops_reverse_trim (text : List Char) : Stops isBlank (trim text).reverse := by
  rw [trim, List.reverse_reverse]
  exact stops_dropWhile _

@[simp] theorem trim_trim (text : List Char) : trim (trim text) = trim text :=
  trim_of_stops (stops_trim text) (stops_reverse_trim text)

theorem trim_blank_append {blanks : List Char} (blank : ∀ c ∈ blanks, isBlank c)
    (text : List Char) :
    trim (blanks ++ text) = trim text := by
  rw [trim, List.dropWhile_append_of_pos blank, trim]

theorem trim_append_blank {blanks : List Char} (blank : ∀ c ∈ blanks, isBlank c)
    (text : List Char) :
    trim (text ++ blanks) = trim text := by
  have back : ∀ c ∈ blanks.reverse, isBlank c :=
    fun c member => blank c (List.mem_reverse.mp member)
  simp only [trim, List.dropWhile_append]
  split
  · rename_i nothing
    rw [List.isEmpty_iff.mp nothing, dropWhile_of_forall blank]
  · rw [List.reverse_append, List.dropWhile_append_of_pos back]

theorem mem_of_mem_trim {text : List Char} {c : Char} (member : c ∈ trim text) : c ∈ text := by
  have inner := (List.dropWhile_suffix isBlank).subset (List.mem_reverse.mp member)
  exact (List.dropWhile_suffix isBlank).subset (List.mem_reverse.mp inner)

end CartoStyle.Text
