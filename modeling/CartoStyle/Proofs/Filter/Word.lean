import CartoStyle.Proofs.Filter.Spelling

/-!
# Texts of word characters

A text of nothing but word characters is one token: a number if it is a numeral, an operator if it
is one in some case of its letters, and a word otherwise. The exception is a text that begins with
digits and an exponent mark behind which there are no digits (`HasBareMark`): the reader of numbers
gives up on it, and no token is found at all (`scan_word`). So `10west` is a word and `10east` makes
an expression unreadable.
-/

namespace CartoStyle.Expression

open Text

/-! ## Texts of one token -/

section Alone

variable {size : Nat} {text : List Char} {token : Token}

@[simp] theorem scanFrom_nil : scanFrom size [] = .ok [] := by
  rw [scanFrom]
  rfl

theorem stops_of_scanToken (found : scanToken text ≠ .absent) : Stops isSpace text := by
  cases text with
  | nil => exact stops_nil
  | cons c others =>
    apply stops_cons.mpr
    apply Bool.eq_false_iff.mpr
    exact fun space => found (scanToken_of_isSpace space)

theorem skipSpace_of_scanToken (found : scanToken text ≠ .absent) : skipSpace text = text :=
  skipSpace_of_stops (stops_of_scanToken found)

/-- A text that is a token to its end is that token. -/
theorem scan_of_token (found : scanToken text = .token token []) :
    scan text = .ok [⟨token, 0⟩] := by
  have skipped : skipSpace text = text := skipSpace_of_scanToken (by rw [found]; nofun)
  have read : scanToken (skipSpace text) = .token token [] := by rw [skipped, found]
  rw [scan, scanFrom_of_token read, scanFrom_nil, skipped, Nat.sub_self]
  rfl

theorem scanFrom_of_unreadable (found : scanToken (skipSpace text) = .unreadable) :
    scanFrom size text = .error (.malformed 0 .unreadable) := by
  rw [scanFrom]
  split
  · rename_i absent
    rw [found] at absent
    cases absent
  · rfl
  · rename_i read
    rw [found] at read
    cases read

theorem scan_of_unreadable (found : scanToken text = .unreadable) :
    scan text = .error (.malformed 0 .unreadable) := by
  have skipped : skipSpace text = text := skipSpace_of_scanToken (by rw [found]; nofun)
  apply scanFrom_of_unreadable
  rw [skipped, found]

end Alone

/-! ## Words -/

section Words

variable {word : List Char}

/-- A text of word characters is a number or a word. -/
theorem scanToken_of_isWordChar (nonempty : word ≠ []) (inside : ∀ c ∈ word, isWordChar c) :
    scanToken word = scanNumberOrWord word := by
  obtain ⟨c, others, rfl⟩ := List.exists_cons_of_ne_nil nonempty
  exact scanToken_of_not_mem_openers
    (not_mem_openers_of_isWordChar (inside c (List.mem_cons_self ..)))

theorem scanWord_of_isWordChar (nonempty : word ≠ []) (inside : ∀ c ∈ word, isWordChar c) :
    scanWord word = .token ((operatorToken? (String.ofList word)).getD
      (.word (String.ofList word))) [] := by
  have visible : String.ofList word ≠ "" := by simpa using nonempty
  simp only [scanWord, takeWhile_of_forall inside, dropWhile_of_forall inside, if_neg visible]

/-- No numeral ends where a text of word characters does, unless it is the whole text. -/
theorem scanNumberOrWord_eq_scanWord (inside : ∀ c ∈ word, isWordChar c)
    (other : ∀ negative value, ¬ IsNumeral word negative value) (marked : ¬ HasBareMark word) :
    scanNumberOrWord word = scanWord word := by
  rw [scanNumberOrWord]
  cases found : scanNumber word with
  | absent => rfl
  | dangling => exact absurd (scanNumber_eq_dangling_iff.mp found) marked
  | number negative value rest =>
    obtain ⟨numeral, counts, shape⟩ := exists_isNumeral found
    cases rest with
    | nil =>
      rw [List.append_nil] at shape
      exact absurd (shape ▸ counts) (other negative value)
    | cons c rest =>
      have letter : isWordChar c := inside c (by simp [shape])
      simp [letter]

instance (text : List Char) : Decidable (HasBareMark text) :=
  decidable_of_iff _ scanNumber_eq_dangling_iff

/-- A text of word characters is a number where it is a numeral, an operator where it is one in some
case of its letters, and a word otherwise; but behind digits an exponent mark without digits of its
own makes it unreadable. -/
theorem scan_word (nonempty : word ≠ []) (inside : ∀ c ∈ word, isWordChar c) :
    (∀ negative value, IsNumeral word negative value →
      scan word = .ok [⟨.number (.ofDecimal negative value), 0⟩]) ∧
    (∀ token, IsKeyword word token → scan word = .ok [⟨token, 0⟩]) ∧
    ((∀ negative value, ¬ IsNumeral word negative value) → (∀ token, ¬ IsKeyword word token) →
      ¬ HasBareMark word → scan word = .ok [⟨.word (String.ofList word), 0⟩]) ∧
    (HasBareMark word → scan word = .error (.malformed 0 .unreadable)) := by
  refine ⟨fun negative value counts => ?_, fun token known => ?_, fun other plain marked => ?_,
    fun marked => ?_⟩
  · exact scan_of_token (Spelling.number counts).scanToken_eq
  · exact scan_of_token (Spelling.keyword known).scanToken_eq
  · apply scan_of_token
    rw [scanToken_of_isWordChar nonempty inside, scanNumberOrWord_eq_scanWord inside other marked,
      scanWord_of_isWordChar nonempty inside, operatorToken?_eq_none inside plain]
    rfl
  · exact scan_of_unreadable (scanToken_of_hasBareMark marked)

theorem scan_tenWest :
    "10west".toList ≠ [] ∧ (∀ c ∈ "10west".toList, isWordChar c) ∧
    (∀ negative value, ¬ IsNumeral "10west".toList negative value) ∧
    (∀ token, ¬ IsKeyword "10west".toList token) ∧ ¬ HasBareMark "10west".toList ∧
    scan "10west".toList = .ok [⟨.word "10west", 0⟩] := by
  have nonempty : "10west".toList ≠ [] := by decide
  have inside : ∀ c ∈ "10west".toList, isWordChar c := by decide
  have front : scanNumber "10west".toList = .number false ⟨10, 0⟩ "west".toList := by decide
  have other (negative : Bool) (value : Decimal) :
      ¬ IsNumeral "10west".toList negative value := by
    intro counts
    have found := scanNumber_of_isNumeral counts stops_nil
    rw [List.append_nil, front] at found
    cases found
  have plain (token : Token) : ¬ IsKeyword "10west".toList token := by
    rintro ⟨entry, known, same, -⟩
    exact absurd same (by revert entry; decide)
  have marked : ¬ HasBareMark "10west".toList := by decide
  exact ⟨nonempty, inside, other, plain, marked,
    (scan_word nonempty inside).2.2.1 other plain marked⟩

/-- A number with an `e` behind it is not a word whatever letters follow. -/
theorem scan_tenEast :
    "10east".toList ≠ [] ∧ (∀ c ∈ "10east".toList, isWordChar c) ∧
    scan "10east".toList = .error (.malformed 0 .unreadable) := by
  have nonempty : "10east".toList ≠ [] := by decide
  have inside : ∀ c ∈ "10east".toList, isWordChar c := by decide
  refine ⟨nonempty, inside, scan_of_unreadable ?_⟩
  decide

end Words

end CartoStyle.Expression
