import CartoStyle.Proofs.Text.Visible
import CartoStyle.Proofs.Xml.Expansion

/-!
# Settled space and line ends

Once a value or a text has been through a document, it goes through another one unchanged: of space,
the value has only blanks left (`plain_of_mem_settledValue`), and the inside of the text is settled
(`interior_interior`). Both are settled piece by piece: what is put behind a value or a text makes
no difference to it, unless that begins with a line feed or, for texts, with markup. For the inside
of a text `interior` is what `lineEnds` leaves, however the text ends.
-/

namespace CartoStyle.Xml

open Text (isVisible trim)

/-! ## Values -/

theorem valueChar_of_ne {c : Char} (tab : c ≠ '\t') (feed : c ≠ '\n') (return_ : c ≠ '\r') :
    valueChar c = c := by
  cases space : Text.isSpace c with
  | false => exact valueChar_of_not_isSpace space
  | true =>
    simp only [Text.isSpace, Bool.or_eq_true, beq_iff_eq] at space
    rcases space with ((rfl | same) | same) | same
    · rfl
    · exact absurd same tab
    · exact absurd same return_
    · exact absurd same feed

theorem valueChar_cases (c : Char) :
    valueChar c = ' ' ∨ Text.isSpace c = false ∧ valueChar c = c := by
  cases space : Text.isSpace c with
  | false => exact .inr ⟨rfl, valueChar_of_not_isSpace space⟩
  | true =>
    rw [valueChar, space]
    exact .inl rfl

/-- What is put behind a value makes no difference to it. -/
theorem settledValue_append (value : List Char) {c : Char} (other : c ≠ '\n') (rest : List Char) :
    settledValue (value ++ c :: rest) = settledValue value ++ settledValue (c :: rest) := by
  induction value with
  | nil => rfl
  | cons d value ih =>
    have one (text : List Char) : settledValue (d :: text) =
        if d = '\r' ∧ text.head? = some '\n' then settledValue text
        else valueChar d :: settledValue text := rfl
    rw [List.cons_append, one, one, ih]
    cases value with
    | nil => simp [other, settledValue]
    | cons e value =>
      rw [List.cons_append, List.head?_cons, List.head?_cons]
      split <;> rfl

theorem settledValue_of_forall {value : List Char}
    (plain : ∀ c ∈ value, c ≠ '\t' ∧ c ≠ '\n' ∧ c ≠ '\r') : settledValue value = value := by
  induction value with
  | nil => rfl
  | cons c value ih =>
    obtain ⟨tab, feed, return_⟩ := plain c (List.mem_cons_self ..)
    have rest := ih fun d member => plain d (List.mem_cons_of_mem _ member)
    rw [settledValue, if_neg fun both => return_ both.1, rest, valueChar_of_ne tab feed return_]

/-- A character of a settled value is a blank or a character of the value that is no space. -/
theorem mem_settledValue {value : List Char} {c : Char} (member : c ∈ settledValue value) :
    c = ' ' ∨ Text.isSpace c = false ∧ c ∈ value := by
  induction value with
  | nil => cases member
  | cons d value ih =>
    have later (found : c ∈ settledValue value) :
        c = ' ' ∨ Text.isSpace c = false ∧ c ∈ d :: value :=
      (ih found).imp_right fun both => ⟨both.1, List.mem_cons_of_mem _ both.2⟩
    rw [settledValue] at member
    split at member
    · exact later member
    · rcases List.mem_cons.mp member with rfl | found
      · rcases valueChar_cases d with blank | ⟨other, same⟩
        · exact .inl blank
        · rw [same]
          exact .inr ⟨other, List.mem_cons_self ..⟩
      · exact later found

theorem plain_of_mem_settledValue {value : List Char} {c : Char}
    (member : c ∈ settledValue value) : c ≠ '\t' ∧ c ≠ '\n' ∧ c ≠ '\r' := by
  rcases mem_settledValue member with rfl | ⟨other, _⟩
  · decide
  · refine ⟨?_, ?_, ?_⟩ <;> rintro rfl <;> cases other

theorem settledValue_of_isVisible {value : List Char} (visible : ∀ c ∈ value, isVisible c) :
    settledValue value = value := by
  apply settledValue_of_forall
  intro c member
  have seen := visible c member
  refine ⟨?_, ?_, ?_⟩ <;> rintro rfl <;> cases seen

/-- Space leaves a trace in a settled value. -/
theorem space_mem_settledValue {value : List Char} {c : Char} (member : c ∈ value)
    (space : Text.isSpace c) : ' ' ∈ settledValue value := by
  induction value generalizing c with
  | nil => cases member
  | cons d value ih =>
    rw [settledValue]
    split
    · rename_i folded
      exact ih (List.mem_of_mem_head? folded.2) rfl
    · rcases List.mem_cons.mp member with rfl | later
      · rw [valueChar, space]
        exact List.mem_cons_self ..
      · exact List.mem_cons_of_mem _ (ih later space)

/-- Nothing else than visible characters settles to them. -/
theorem settledValue_eq_iff {value target : List Char} (visible : ∀ c ∈ target, isVisible c) :
    settledValue value = target ↔ value = target := by
  constructor
  · intro same
    have unspaced : ∀ c ∈ value, Text.isSpace c = false := by
      intro c member
      cases space : Text.isSpace c with
      | false => rfl
      | true => cases visible ' ' (same ▸ space_mem_settledValue member space)
    rw [← same, settledValue_of_forall]
    intro c member
    have other := unspaced c member
    refine ⟨?_, ?_, ?_⟩ <;> rintro rfl <;> cases other
  · rintro rfl
    exact settledValue_of_isVisible visible

/-! ## Texts -/

/-- A part of a text as it is read, whatever stands behind it. -/
def interior : List Char → List Char
  | [] => []
  | c :: others =>
    if c = '\r' then
      match others.head? with
      | none => ['\n']
      | some d =>
        if d = '\n' then interior others
        else (if isMarkup d then '\r' else '\n') :: interior others
    else c :: interior others

theorem interior_cons_of_ne {c : Char} (other : c ≠ '\r') (text : List Char) :
    interior (c :: text) = c :: interior text := if_neg other

theorem interior_return_cons (d : Char) (text : List Char) :
    interior ('\r' :: d :: text) =
      if d = '\n' then interior (d :: text)
      else (if isMarkup d then '\r' else '\n') :: interior (d :: text) := rfl

/-- Texts end in a carriage return or a line feed where they end in the one or the other inside. -/
theorem lineEnds_cases (spared : Bool) (text : List Char) :
    lineEnds spared text = interior text ∨
      ∃ before, lineEnds spared text = before ++ ['\r'] ∧ interior text = before ++ ['\n'] := by
  induction text generalizing spared with
  | nil => exact .inl rfl
  | cons c others ih =>
    have extend (flag : Bool) (d : Char) (first : lineEnds spared (c :: others) =
        d :: lineEnds flag others) (second : interior (c :: others) = d :: interior others) :
        lineEnds spared (c :: others) = interior (c :: others) ∨
          ∃ before, lineEnds spared (c :: others) = before ++ ['\r'] ∧
            interior (c :: others) = before ++ ['\n'] := by
      rw [first, second]
      rcases ih flag with same | ⟨before, one, two⟩
      · exact .inl (by rw [same])
      · exact .inr ⟨d :: before, by rw [one]; rfl, by rw [two]; rfl⟩
    by_cases return_ : c = '\r'
    · subst return_
      cases others with
      | nil =>
        cases spared with
        | false => exact .inl rfl
        | true => exact .inr ⟨[], rfl, rfl⟩
      | cons d others =>
        by_cases feed : d = '\n'
        · have one := lineEnds_return_cons spared d others
          have two := interior_return_cons d others
          rw [if_pos feed] at one two
          rw [one, two]
          exact ih false
        · apply extend false (if isMarkup d then '\r' else '\n')
          · rw [lineEnds_return_cons, if_neg feed]
          · rw [interior_return_cons, if_neg feed]
    · exact extend _ c (lineEnds_cons_of_ne return_ ..) (interior_cons_of_ne return_ _)

/-- How a text ends makes no difference once it is trimmed. -/
theorem trim_lineEnds (spared : Bool) (text : List Char) :
    trim (lineEnds spared text) = trim (interior text) := by
  rcases lineEnds_cases spared text with same | ⟨before, one, two⟩
  · rw [same]
  · rw [one, two, Text.trim_append_blank (by decide), Text.trim_append_blank (by decide)]

/-- What is put behind a text makes no difference to it, but line feeds and markup do. -/
theorem interior_append (text : List Char) {c : Char} (feed : c ≠ '\n')
    (plain : isMarkup c = false) (rest : List Char) :
    interior (text ++ c :: rest) = interior text ++ interior (c :: rest) := by
  induction text with
  | nil => rfl
  | cons d text ih =>
    by_cases return_ : d = '\r'
    · subst return_
      cases text with
      | nil =>
        have cut := interior_return_cons c rest
        rw [if_neg feed, plain] at cut
        exact cut
      | cons e text =>
        rw [List.cons_append] at ih
        rw [List.cons_append, List.cons_append, interior_return_cons, interior_return_cons, ih]
        split <;> rfl
    · rw [List.cons_append, interior_cons_of_ne return_, ih, interior_cons_of_ne return_,
        List.cons_append]

/-- What stands in front of a text makes no difference to it, but carriage returns do. -/
theorem interior_append_of_not_mem {before : List Char} (absent : '\r' ∉ before)
    (text : List Char) : interior (before ++ text) = before ++ interior text := by
  induction before with
  | nil => rfl
  | cons c before ih =>
    have other : c ≠ '\r' := fun same => absent (same ▸ List.mem_cons_self ..)
    rw [List.cons_append, interior_cons_of_ne other,
      ih fun member => absent (List.mem_cons_of_mem _ member), List.cons_append]

theorem interior_of_not_mem {text : List Char} (absent : '\r' ∉ text) : interior text = text := by
  have whole := interior_append_of_not_mem absent []
  rwa [List.append_nil, interior, List.append_nil] at whole

@[simp] theorem interior_interior (text : List Char) :
    interior (interior text) = interior text := by
  induction text with
  | nil => rfl
  | cons c text ih =>
    by_cases return_ : c = '\r'
    · subst return_
      cases text with
      | nil => rfl
      | cons d text =>
        rw [interior_return_cons]
        split
        · exact ih
        · rename_i feed
          cases markup : isMarkup d with
          | false =>
            rw [if_neg (by simp), interior_cons_of_ne (by decide), ih]
          | true =>
            have other : d ≠ '\r' := by
              rintro rfl
              cases markup
            rw [interior_cons_of_ne other, interior_cons_of_ne other] at ih
            rw [if_pos rfl, interior_cons_of_ne other, interior_return_cons, if_neg feed, markup,
              if_pos rfl, interior_cons_of_ne other, ih]
    · rw [interior_cons_of_ne return_, interior_cons_of_ne return_, ih]

/-- A character of a text as it is read is a line feed or a character of the text. -/
theorem mem_interior {text : List Char} {c : Char} (member : c ∈ interior text) :
    c = '\n' ∨ c ∈ text := by
  induction text with
  | nil => cases member
  | cons d text ih =>
    have later (found : c ∈ interior text) : c = '\n' ∨ c ∈ d :: text :=
      (ih found).imp_right (List.mem_cons_of_mem _)
    by_cases return_ : d = '\r'
    · subst return_
      cases text with
      | nil => exact .inl (List.mem_singleton.mp member)
      | cons e text =>
        rw [interior_return_cons] at member
        split at member
        · exact later member
        · rcases List.mem_cons.mp member with first | found
          · split at first
            · exact .inr (first ▸ List.mem_cons_self ..)
            · exact .inl first
          · exact later found
    · rw [interior_cons_of_ne return_] at member
      rcases List.mem_cons.mp member with rfl | found
      · exact .inr (List.mem_cons_self ..)
      · exact later found

theorem interior_of_isVisible {text : List Char} (visible : ∀ c ∈ text, isVisible c) :
    interior text = text := by
  apply interior_of_not_mem
  intro member
  cases visible _ member

end CartoStyle.Xml
