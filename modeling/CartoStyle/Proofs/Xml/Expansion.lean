import CartoStyle.Proofs.Xml.Markup
import CartoStyle.Xml.Event

/-! # What is left of values and texts

The escapes of a written value or text are references, which are spared when space and line ends are
settled. `settledValue` and `lineEnds` say what remains: in a value every line end and every tab is
one blank, in a text every line end is a line feed. A carriage return stays in a text where a
reference follows it, or where a reference goes before it and it is the last character.
-/

namespace CartoStyle.Xml

open Scanner

/-! ## References -/

/-- A character as a part of a text that was written with escapes. -/
def pieceOf (escape : Char → List Char) (c : Char) : Piece :=
  if escape c = [c] then .literal c else .character c

theorem run_many_of_some {α : Type} {step : Scanner (Option α)} {advances : step.Advances}
    {text rest : List Char} {value : α} (said : step.run text = some (some value, rest)) :
    (many step advances).run text =
      ((many step advances).run rest).map fun (values, after) => (value :: values, after) := by
  have ran : (stateless step).run text = some (some (value, ()), rest) := by
    rw [stateless, run_bind_of_run said]
    rfl
  have opened :=
    run_unfold (fun () => stateless step) (fun () => advances_stateless advances) () text
  rw [ran] at opened
  exact opened

theorem run_many_of_none {α : Type} {step : Scanner (Option α)} {advances : step.Advances}
    {text rest : List Char} (said : step.run text = some (none, rest)) :
    (many step advances).run text = some ([], rest) := by
  have ran : (stateless step).run text = some (none, rest) := by
    rw [stateless, run_bind_of_run said]
    rfl
  have opened :=
    run_unfold (fun () => stateless step) (fun () => advances_stateless advances) () text
  rw [ran] at opened
  exact opened

/-- A character that is spelled as it is, or one that is spelled by its reference. -/
theorem run_piece_literal {c : Char} (plain : c ≠ '&') (rest : List Char) :
    piece.run (c :: rest) = some (some (.literal c), rest) := by
  have other : ('&' == c) = false := beq_eq_false_iff_ne.mpr plain.symm
  simp [piece, List.isPrefixOf, other]

theorem run_piece_textEscape (c : Char) (rest : List Char) :
    piece.run (textEscape c ++ rest) = some (some (pieceOf textEscape c), rest) := by
  rcases textEscape_cases c with rfl | rfl | rfl | ⟨⟨_, _, and⟩, plain⟩
  · rfl
  · rfl
  · rfl
  · rw [pieceOf, if_pos plain, plain]
    exact run_piece_literal and rest

theorem run_piece_valueEscape (c : Char) (rest : List Char) :
    piece.run (valueEscape c ++ rest) = some (some (pieceOf valueEscape c), rest) := by
  rcases valueEscape_cases c with rfl | rfl | ⟨_, same⟩
  · rfl
  · rfl
  · rw [pieceOf, same]
    exact run_piece_textEscape c rest

/-- A text that was written with escapes has a part for each of its characters. -/
theorem pieces?_flatMap {escape : Char → List Char}
    (escaped : ∀ c rest, piece.run (escape c ++ rest) = some (some (pieceOf escape c), rest))
    (text : List Char) : pieces? (text.flatMap escape) = some (text.map (pieceOf escape)) := by
  have all : (many piece advances_piece).run (text.flatMap escape) =
      some (text.map (pieceOf escape), []) := by
    induction text with
    | nil => exact run_many_of_none rfl
    | cons c text ih => rw [List.flatMap_cons, run_many_of_some (escaped c _), ih]; rfl
  rw [pieces?, all]
  rfl

theorem pieces?_spelledInText (text : List Char) :
    pieces? (spelledInText text) = some (text.map (pieceOf textEscape)) :=
  pieces?_flatMap run_piece_textEscape text

theorem pieces?_spelledInQuotes (value : List Char) :
    pieces? (spelledInQuotes value) = some (value.map (pieceOf valueEscape)) :=
  pieces?_flatMap run_piece_valueEscape value

/-! ## Values -/

/-- A value as it is read: every line end and every tab is one blank. -/
def settledValue : List Char → List Char
  | [] => []
  | c :: others =>
    if c = '\r' ∧ others.head? = some '\n' then settledValue others
    else valueChar c :: settledValue others

theorem pieceOf_eq_character {escape : Char → List Char} {c : Char} (other : escape c ≠ [c]) :
    pieceOf escape c = .character c := if_neg other

theorem pieceOf_eq_literal {escape : Char → List Char} {c : Char} (plain : escape c = [c]) :
    pieceOf escape c = .literal c := if_pos plain

/-- A character of markup is no space. -/
theorem valueEscape_of_isSpace {c : Char} (space : Text.isSpace c) : valueEscape c = [c] := by
  simp only [Text.isSpace, Bool.or_eq_true, beq_iff_eq] at space
  rcases space with ((rfl | rfl) | rfl) | rfl <;> rfl

theorem valueChar_of_not_isSpace {c : Char} (other : Text.isSpace c = false) : valueChar c = c := by
  rw [valueChar, other]
  rfl

/-- A literal line feed in a value was one. -/
theorem head?_of_map_pieceOf {text : List Char} {rest : List Piece}
    (lineFeed : text.map (pieceOf valueEscape) = .literal '\n' :: rest) :
    text.head? = some '\n' := by
  obtain ⟨c, others, rfl, first, _⟩ := List.map_eq_cons_iff.mp lineFeed
  rw [pieceOf] at first
  split at first
  · cases first
    rfl
  · cases first

/-- The parts of a written value give the settled value. -/
theorem valueOfPieces_map (inner : String → Expansion (List Char)) (value : List Char) :
    valueOfPieces inner true (value.map (pieceOf valueEscape)) = pure (settledValue value) := by
  induction value with
  | nil => rfl
  | cons c others ih =>
    rw [List.map_cons]
    by_cases plain : valueEscape c = [c]
    · rw [pieceOf_eq_literal plain, valueOfPieces, ih, pure_bind, settledValue]
      split
      · rename_i lineFeed
        rw [if_pos ⟨rfl, head?_of_map_pieceOf lineFeed⟩]
      · rename_i other
        rw [if_neg]
        rintro ⟨rfl, next⟩
        obtain ⟨rest, rfl⟩ := List.head?_eq_some_iff.mp next
        exact other _ rfl rfl
    · have other : Text.isSpace c = false := by
        cases space : Text.isSpace c with
        | false => rfl
        | true => exact absurd (valueEscape_of_isSpace space) plain
      have noReturn : c ≠ '\r' := by
        rintro rfl
        cases other
      rw [pieceOf_eq_character plain, valueOfPieces, ih, settledValue]
      simp [noReturn, valueChar_of_not_isSpace other]

theorem expandValue_spelledInQuotes (entities : Entities) (levels : Nat) (value : List Char) :
    expandValue entities levels true (spelledInQuotes value) = pure (settledValue value) := by
  cases levels with
  | zero =>
    rw [expandValue, pieces?_spelledInQuotes]
    exact valueOfPieces_map _ value
  | succ levels =>
    rw [expandValue, pieces?_spelledInQuotes]
    exact valueOfPieces_map _ value

/-! ## Texts -/

/-- A character that is escaped in texts. -/
def isMarkup (c : Char) : Bool := c == '<' || c == '>' || c == '&'

/-- A text as it is read, `spared` if a reference stands before it: every line end is a line feed,
but a carriage return stays before a reference, and behind one at the end of the text. -/
def lineEnds : Bool → List Char → List Char
  | _, [] => []
  | spared, c :: others =>
    if c = '\r' then
      match others.head? with
      | none => if spared then ['\r'] else ['\n']
      | some d =>
        if d = '\n' then lineEnds false others
        else (if isMarkup d then '\r' else '\n') :: lineEnds false others
    else c :: lineEnds (isMarkup c) others

theorem pieceOf_textEscape (c : Char) :
    pieceOf textEscape c = if isMarkup c then .character c else .literal c := by
  rcases textEscape_cases c with rfl | rfl | rfl | ⟨⟨less, greater, and⟩, plain⟩
  · rfl
  · rfl
  · rfl
  · rw [pieceOf_eq_literal plain]
    simp [isMarkup, less, greater, and]

theorem lineEnds_cons_of_ne {c : Char} (other : c ≠ '\r') (spared : Bool) (text : List Char) :
    lineEnds spared (c :: text) = c :: lineEnds (isMarkup c) text := if_neg other

theorem lineEnds_return_cons (spared : Bool) (d : Char) (text : List Char) :
    lineEnds spared ('\r' :: d :: text) =
      if d = '\n' then lineEnds false (d :: text)
      else (if isMarkup d then '\r' else '\n') :: lineEnds false (d :: text) := rfl

theorem lineEnds_ne_nil {text : List Char} (nonempty : text ≠ []) (spared : Bool) :
    lineEnds spared text ≠ [] := by
  induction text generalizing spared with
  | nil => exact absurd rfl nonempty
  | cons c others ih =>
    by_cases return_ : c = '\r'
    · subst return_
      cases others with
      | nil => cases spared <;> exact List.cons_ne_nil _ _
      | cons d others =>
        rw [lineEnds_return_cons]
        split
        · exact ih (List.cons_ne_nil _ _) false
        · exact List.cons_ne_nil _ _
    · rw [lineEnds_cons_of_ne return_]
      exact List.cons_ne_nil _ _

/-- A text without carriage returns stays as it is. -/
theorem lineEnds_of_not_mem {text : List Char} (absent : '\r' ∉ text) (spared : Bool) :
    lineEnds spared text = text := by
  induction text generalizing spared with
  | nil => rfl
  | cons c others ih =>
    have other : c ≠ '\r' := fun same => absent (same ▸ List.mem_cons_self ..)
    rw [lineEnds_cons_of_ne other, ih fun member => absent (List.mem_cons_of_mem _ member)]

theorem pushText_of_head {reversed : List Char} (head : reversed.head? ≠ some '\r') (c : Char)
    (last : Bool) :
    pushText reversed c last = if last && c == '\r' then '\n' :: reversed else c :: reversed := by
  unfold pushText
  split
  · exact absurd rfl head
  · rfl

theorem pushText_pending (before : List Char) (c : Char) (last : Bool) :
    pushText ('\r' :: before) c last =
      if last && c == '\r' then '\n' :: '\n' :: before
      else if c == '\n' then '\n' :: before
      else c :: '\n' :: before := rfl

/-- A carriage return before more characters does not ask for what stands before it. -/
theorem lineEnds_return_of_ne_nil {text : List Char} (more : text ≠ []) (spared : Bool) :
    lineEnds spared ('\r' :: text) = lineEnds false ('\r' :: text) := by
  cases text with
  | nil => exact absurd rfl more
  | cons d others => rfl

theorem ne_return_of_isMarkup {c : Char} (markup : isMarkup c) : c ≠ '\r' := by
  rintro rfl
  cases markup

section Pieces

variable (inner : String → Expansion (List Event)) {c : Char} {others : List Char}

/-- A character of markup is spelled by its reference, and spares the next one. -/
theorem eventsOfPieces_markup (markup : isMarkup c) (reversed : List Char) (spared : Bool) :
    eventsOfPieces inner true reversed spared ((c :: others).map (pieceOf textEscape)) =
      eventsOfPieces inner true (c :: reversed) true (others.map (pieceOf textEscape)) := by
  rw [List.map_cons, pieceOf_textEscape, if_pos markup, eventsOfPieces, if_pos rfl]

theorem eventsOfPieces_spared (plain : isMarkup c = false) (reversed : List Char) :
    eventsOfPieces inner true reversed true ((c :: others).map (pieceOf textEscape)) =
      eventsOfPieces inner true (c :: reversed) false (others.map (pieceOf textEscape)) := by
  rw [List.map_cons, pieceOf_textEscape, if_neg (Bool.eq_false_iff.mp plain), eventsOfPieces]

theorem eventsOfPieces_plain (plain : isMarkup c = false) (reversed : List Char) :
    eventsOfPieces inner true reversed false ((c :: others).map (pieceOf textEscape)) =
      eventsOfPieces inner true (pushText reversed c others.isEmpty) false
        (others.map (pieceOf textEscape)) := by
  rw [List.map_cons, pieceOf_textEscape, if_neg (Bool.eq_false_iff.mp plain), eventsOfPieces,
    List.isEmpty_map]

/-- The parts of a written text are read as its characters with their line ends. A carriage return
before them may wait for the first of them. -/
structure ReadsText (inner : String → Expansion (List Event)) (text : List Char) : Prop where
  settled (reversed : List Char) (spared : Bool) (head : reversed.head? ≠ some '\r') :
    eventsOfPieces inner true reversed spared (text.map (pieceOf textEscape)) =
      pure (Event.ofReversed ((lineEnds spared text).reverse ++ reversed))
  pending (before : List Char) (nonempty : text ≠ []) :
    eventsOfPieces inner true ('\r' :: before) false (text.map (pieceOf textEscape)) =
      pure (Event.ofReversed ((lineEnds false ('\r' :: text)).reverse ++ before))

variable {inner}

namespace ReadsText

/-- A character that is no carriage return is settled for those after it. -/
theorem after (reads : ReadsText inner others) (other : c ≠ '\r') (reversed : List Char)
    (spared : Bool) :
    eventsOfPieces inner true (c :: reversed) spared (others.map (pieceOf textEscape)) =
      pure (Event.ofReversed ((lineEnds spared others).reverse ++ c :: reversed)) :=
  reads.settled (c :: reversed) spared (by simpa using other)

theorem cons_markup (reads : ReadsText inner others) (markup : isMarkup c) :
    ReadsText inner (c :: others) where
  settled reversed spared _ := by
    have other := ne_return_of_isMarkup markup
    rw [eventsOfPieces_markup inner markup, reads.after other]
    simp [lineEnds_cons_of_ne other, markup]
  pending before _ := by
    have other := ne_return_of_isMarkup markup
    have feed : c ≠ '\n' := by
      rintro rfl
      cases markup
    rw [eventsOfPieces_markup inner markup, reads.after other]
    simp [lineEnds_return_cons, lineEnds_cons_of_ne other, markup, feed]

/-- A carriage return waits, unless it is the last character. -/
theorem cons_return (reads : ReadsText inner others) : ReadsText inner ('\r' :: others) where
  settled reversed spared head := by
    cases others with
    | nil =>
      cases spared with
      | true => rfl
      | false =>
        rw [eventsOfPieces_plain inner rfl, pushText_of_head head]
        rfl
    | cons d others =>
      rw [lineEnds_return_of_ne_nil (List.cons_ne_nil d others),
        ← reads.pending reversed (List.cons_ne_nil d others)]
      cases spared with
      | true => rw [eventsOfPieces_spared inner rfl]
      | false =>
        rw [eventsOfPieces_plain inner rfl, pushText_of_head head]
        rfl
  pending before _ := by
    cases others with
    | nil => rfl
    | cons d others =>
      have waiting := reads.pending ('\n' :: before) (List.cons_ne_nil d others)
      have returned : lineEnds false ('\r' :: '\r' :: d :: others) =
          '\n' :: lineEnds false ('\r' :: d :: others) := rfl
      rw [returned, List.reverse_cons, List.append_assoc, List.singleton_append, ← waiting,
        eventsOfPieces_plain inner rfl]
      rfl

theorem cons_plain (reads : ReadsText inner others) (plain : isMarkup c = false)
    (other : c ≠ '\r') : ReadsText inner (c :: others) where
  settled reversed spared head := by
    rw [lineEnds_cons_of_ne other, plain]
    cases spared with
    | true =>
      rw [eventsOfPieces_spared inner plain, reads.after other]
      simp
    | false =>
      rw [eventsOfPieces_plain inner plain, pushText_of_head head]
      simp [other, reads.after other]
  pending before _ := by
    rw [eventsOfPieces_plain inner plain, pushText_pending, lineEnds_return_cons,
      lineEnds_cons_of_ne other, plain]
    by_cases feed : c = '\n'
    · subst feed
      simp [reads.after (c := '\n') (by decide)]
    · simp [reads.after other, other, feed]

end ReadsText

theorem readsText (text : List Char) : ReadsText inner text := by
  induction text with
  | nil => exact ⟨fun _ _ _ => rfl, fun _ nonempty => absurd rfl nonempty⟩
  | cons c others ih =>
    cases markup : isMarkup c with
    | true => exact ih.cons_markup markup
    | false =>
      by_cases return_ : c = '\r'
      · subst return_
        exact ih.cons_return
      · exact ih.cons_plain markup return_

end Pieces

/-- The event of a text, if there is any. -/
def textEvents (text : List Char) : List Event := if text.isEmpty then [] else [.text text]

theorem ofReversed_reverse (text : List Char) :
    Event.ofReversed text.reverse = textEvents text := by
  simp [Event.ofReversed, textEvents]

theorem eventsOfPieces_textEscape (inner : String → Expansion (List Event)) (text : List Char) :
    eventsOfPieces inner true [] false (text.map (pieceOf textEscape)) =
      pure (textEvents (lineEnds false text)) := by
  rw [(readsText text).settled [] false (by simp), List.append_nil, ofReversed_reverse]

/-! ## Tokens -/

theorem exists_expandTokens (entities : Entities) :
    ∃ inner, ∀ tokens, expandTokens entities levelLimit true tokens =
      eventsOfTokens (expandValue entities levelLimit true) inner true tokens :=
  ⟨_, fun _ => rfl⟩

/-- Attributes as they are read from a tag that was written. -/
def settledAttributes (attributes : Attributes) : List (QualifiedName × List Char) :=
  attributes.entries.map fun entry => (.plain entry.1, settledValue entry.2.shown.toList)

theorem mapM_spelledAttributes (entities : Entities) (attributes : Attributes) :
    (spelledAttributes attributes).mapM (fun entry => do
      return (entry.1, ← expandValue entities levelLimit true entry.2)) =
      (pure (settledAttributes attributes) : Expansion (List (QualifiedName × List Char))) := by
  rw [spelledAttributes, settledAttributes]
  induction attributes.entries with
  | nil => rfl
  | cons entry entries ih =>
    rw [List.map_cons, List.mapM_cons, expandValue_spelledInQuotes, ih]
    simp

section Tokens

variable (entities : Entities) (tokens : List Token)

theorem expandTokens_start (name : QualifiedName) (attributes : Attributes) (closed : Bool) :
    expandTokens entities levelLimit true
        (.start name (spelledAttributes attributes) closed :: tokens) = do
      let after ← expandTokens entities levelLimit true tokens
      return .start name (settledAttributes attributes) closed :: after := by
  obtain ⟨inner, same⟩ := exists_expandTokens entities
  have values := mapM_spelledAttributes entities attributes
  rw [same, same, eventsOfTokens]
  simp only [values, pure_bind]

theorem expandTokens_finish (name : QualifiedName) :
    expandTokens entities levelLimit true (.finish name :: tokens) = do
      let after ← expandTokens entities levelLimit true tokens
      return .finish name :: after := by
  obtain ⟨inner, same⟩ := exists_expandTokens entities
  rw [same, same, eventsOfTokens]

theorem expandTokens_text (content : List Char) :
    expandTokens entities levelLimit true (.text (spelledInText content) :: tokens) = do
      let after ← expandTokens entities levelLimit true tokens
      return textEvents (lineEnds false content) ++ after := by
  obtain ⟨inner, same⟩ := exists_expandTokens entities
  have read := eventsOfPieces_textEscape inner content
  rw [same, same, eventsOfTokens, pieces?_spelledInText]
  change (do
    let events ← eventsOfPieces inner true [] false (content.map (pieceOf textEscape))
    let after ← eventsOfTokens (expandValue entities levelLimit true) inner true tokens
    return events ++ after) = _
  rw [read, pure_bind]

end Tokens

end CartoStyle.Xml
