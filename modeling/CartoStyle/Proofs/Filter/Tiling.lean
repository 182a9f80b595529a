import CartoStyle.Proofs.Filter.Layout
import Mathlib.Data.List.Infix

/-!
# Tiles of an expression

An expression that can be cut into tokens is nothing but its tokens and space: each token has a
stretch of the text for itself, which begins at the position of the token, and space is all that
stands before, between and behind these tiles (`scan_tiles`). What stops the scan otherwise is a
character that is no space, and the text in front of it is tiled like the rest.

A tile that is cut out of its expression is the same token again, but for one kind of tile: in
`1e+5.5` the word `1e` ends before the sign, since the number `1e+5` would have more of a word
behind it, while `1e` alone is a number whose exponent has no digits (`scan_splitNumber`).
-/

namespace CartoStyle.Expression

open Text

/-! ## The text of one token -/

/-- A piece that can be told from its spelling, unless it is a word that would be a number with a
bare exponent mark if it stood alone. -/
structure Piece.IsTile (piece : Piece) : Prop where
  spaced : ∀ c ∈ piece.gap, isSpace c
  nonempty : piece.spelling ≠ []
  alone : ¬ HasBareMark piece.spelling → scan piece.spelling = .ok [⟨piece.token, 0⟩]
  marked : HasBareMark piece.spelling → piece.token = .word (String.ofList piece.spelling) ∧
    scan piece.spelling = .error (.malformed 0 .unreadable)

section Tokens

variable {text rest gap : List Char} {token : Token}

/-- A number with a bare exponent mark is no operator. -/
theorem not_isKeyword_of_hasBareMark {word : List Char} (marked : HasBareMark word)
    (token : Token) : ¬ IsKeyword word token := by
  intro known
  obtain ⟨first, others, rfl, opens, -⟩ := known.opens
  have stop : Stops opensNumeral (first :: others) :=
    stops_cons.mpr (opensNumeral_of_opensWord opens)
  have absent := scanNumber_of_stops stop
  rw [scanNumber_eq_dangling_iff.mpr marked] at absent
  cases absent

/-- A word that is not a number up to its end has a tile. -/
theorem isTile_word {word : List Char} (spaced : ∀ c ∈ gap, isSpace c) (nonempty : word ≠ [])
    (inside : ∀ c ∈ word, isWordChar c)
    (other : ∀ negative value, ¬ IsNumeral word negative value) :
    (Piece.mk gap word ((operatorToken? (String.ofList word)).getD
      (.word (String.ofList word)))).IsTile where
  spaced := spaced
  nonempty := nonempty
  alone unmarked := by
    apply scan_of_token
    rw [scanToken_of_isWordChar nonempty inside, scanNumberOrWord_eq_scanWord inside other unmarked,
      scanWord_of_isWordChar nonempty inside]
  marked marked := by
    refine ⟨?_, scan_of_unreadable (scanToken_of_hasBareMark marked)⟩
    rw [operatorToken?_eq_none inside (not_isKeyword_of_hasBareMark marked)]
    rfl

/-- A token at the front of a text has a tile there. -/
theorem exists_isTile (spaced : ∀ c ∈ gap, isSpace c) (found : scanToken text = .token token rest) :
    ∃ spelling, (Piece.mk gap spelling token).IsTile ∧ text = spelling ++ rest := by
  rcases scanToken_cases found with ⟨spelling, spelled, shape⟩ | ⟨word, longer⟩
  · have itself := spelled.scanToken_eq
    have unmarked : ¬ HasBareMark spelling := by
      intro marked
      rw [scanToken_of_hasBareMark marked] at itself
      cases itself
    refine ⟨spelling, ⟨spaced, ?_, fun _ => scan_of_token itself, (absurd · unmarked)⟩, shape⟩
    rintro rfl
    cases itself
  · simp only [scanWord] at word
    split at word
    · cases word
    · rename_i nonempty
      cases word
      have parts := (List.takeWhile_append_dropWhile (p := isWordChar) (l := text)).symm
      refine ⟨_, isTile_word spaced (by simpa using nonempty)
        (fun c => List.all_eq_true.mp List.all_takeWhile c) fun negative value counts => ?_, parts⟩
      -- a numeral of these characters would have been read as a number
      have stop := stops_dropWhile (p := isWordChar) text
      have number := scanNumber_of_isNumeral counts (stops_continuesNumber stop)
      rw [← parts] at number
      have more := longer _ _ _ number
      cases shape : text.dropWhile isWordChar with
      | nil => simp [shape] at more
      | cons c others =>
        rw [shape] at stop more
        simp [stops_cons.mp stop] at more

end Tokens

/-! ## The whole text -/

/-- What a scan comes to that has cut some pieces off a text, goes on behind the last of them, and
finds no token there. -/
def stopped (start : Nat) (pieces : List Piece) (gap behind : List Char) :
    Except Problem (List Placed) :=
  if scanToken behind = .unreadable then .error (.malformed 0 .unreadable)
  else match obstacle behind with
    | none => .ok (placedFrom start pieces)
    | some cause => .error (.malformed (start + byteLength (layout pieces gap)) cause)

section Scanning

variable {text : List Char}

theorem scanFrom_of_absent {size : Nat} (absent : scanToken (skipSpace text) = .absent) :
    scanFrom size text = match obstacle (skipSpace text) with
      | none => .ok []
      | some cause => .error (.malformed (size - byteLength (skipSpace text)) cause) := by
  rw [scanFrom]
  split
  · rfl
  · rename_i unreadable
    rw [absent] at unreadable
    cases unreadable
  · rename_i read
    rw [absent] at read
    cases read

theorem byteLength_layout_cons (piece : Piece) (pieces : List Piece) (ending : List Char) :
    byteLength (layout (piece :: pieces) ending) =
      byteLength piece.gap + byteLength piece.spelling + byteLength (layout pieces ending) := by
  rw [layout_cons, byteLength_append, byteLength_append, Nat.add_assoc]

theorem stopped_cons (start : Nat) (piece : Piece) (pieces : List Piece) (gap behind : List Char) :
    stopped start (piece :: pieces) gap behind =
      (stopped (start + byteLength piece.gap + byteLength piece.spelling) pieces gap behind).map
        (⟨piece.token, start + byteLength piece.gap⟩ :: ·) := by
  simp only [stopped, byteLength_layout_cons, placedFrom, ← Nat.add_assoc]
  split
  · rfl
  · split <;> rfl

/-- Tokens are cut off a text until there are none, and nothing else is. -/
theorem exists_tiles (start : Nat) (text : List Char) :
    ∃ pieces gap behind, (∀ piece ∈ pieces, piece.IsTile) ∧ (∀ c ∈ gap, isSpace c) ∧
      Stops isSpace behind ∧ text = layout pieces (gap ++ behind) ∧
      scanFrom (start + byteLength text) text = stopped start pieces gap behind := by
  have spaced : ∀ c ∈ text.takeWhile isSpace, isSpace c :=
    fun c => List.all_eq_true.mp List.all_takeWhile c
  have parts : text.takeWhile isSpace ++ skipSpace text = text := List.takeWhile_append_dropWhile
  have stop : Stops isSpace (skipSpace text) := stops_dropWhile text
  cases found : scanToken (skipSpace text) with
  | absent =>
    refine ⟨[], _, _, nofun, spaced, stop, parts.symm, ?_⟩
    have place : start + byteLength text - byteLength (skipSpace text) =
        start + byteLength (text.takeWhile isSpace) := by
      rw [← parts, byteLength_append, parts, ← Nat.add_assoc, Nat.add_sub_cancel]
    rw [scanFrom_of_absent found, place, stopped, found]
    rfl
  | unreadable =>
    refine ⟨[], _, _, nofun, spaced, stop, parts.symm, ?_⟩
    rw [scanFrom_of_unreadable found, stopped, found]
    rfl
  | token token rest =>
    obtain ⟨spelling, tile, shape⟩ := exists_isTile spaced found
    obtain ⟨pieces, gap, behind, tiles, spaced', stop', split, scanned⟩ :=
      exists_tiles (start + byteLength (text.takeWhile isSpace) + byteLength spelling) rest
    refine ⟨_, gap, behind, List.forall_mem_cons.mpr ⟨tile, tiles⟩, spaced', stop', ?_, ?_⟩
    · rw [layout_cons, ← split, ← shape, parts]
    · have read : scanToken (spelling ++ rest) = .token token rest := by rw [← shape, found]
      have first := scanFrom_piece start spaced read
      rw [← shape, parts] at first
      rw [first, scanned, stopped_cons]
termination_by text.length
decreasing_by
  have := scanToken_shortens found
  have := length_skipSpace_le text
  omega

theorem message_unexpectedCharacter (c : Char) :
    (Malformation.unexpectedCharacter c).message =
      "unexpected character '" ++ (toString c ++ "'") := by
  rw [← String.append_assoc]
  rfl

/-- Only a quote stops the scan as a literal that is not closed. -/
theorem message_obstacle_iff (c : Char) :
    (if isQuote c then Malformation.unterminatedText else .unexpectedCharacter c).message =
      "unterminated string literal" ↔ isQuote c := by
  split
  · rename_i quoted
    exact iff_of_true rfl quoted
  · rename_i other
    refine iff_of_false (fun same => ?_) other
    rw [message_unexpectedCharacter] at same
    have letters := congrArg String.toList same
    rw [String.toList_append] at letters
    have begins : "unexpected character '".toList <+: "unterminated string literal".toList :=
      letters ▸ List.prefix_append _ _
    exact absurd begins (by decide)

theorem length_le_byteLength (text : List Char) : text.length ≤ byteLength text := by
  induction text with
  | nil => exact Nat.le_refl 0
  | cons c text ih =>
    have := c.utf8Size_pos
    rw [List.length_cons, byteLength_cons]
    omega

/-- An expression that is cut into tokens is their tiles and space. One that is not is unreadable,
or the scan stops at a character that is no space and is tiled up to there; a quote is what stops it
if a literal is not closed. -/
theorem scan_tiles (text : List Char) :
    (∀ placed, scan text = .ok placed → ∃ pieces ending, (∀ piece ∈ pieces, piece.IsTile) ∧
      (∀ c ∈ ending, isSpace c) ∧ text = layout pieces ending ∧ placed = placedFrom 0 pieces) ∧
    (∀ problem, scan text = .error problem → problem = .malformed 0 .unreadable ∨
      ∃ pieces gap c rest cause, (∀ piece ∈ pieces, piece.IsTile) ∧ (∀ d ∈ gap, isSpace d) ∧
        isSpace c = false ∧ text = layout pieces (gap ++ c :: rest) ∧
        problem = .malformed (byteLength (layout pieces gap)) cause ∧
        (cause.message = "unterminated string literal" ↔ isQuote c)) := by
  obtain ⟨pieces, gap, behind, tiles, spaced, stop, shape, scanned⟩ := exists_tiles 0 text
  rw [Nat.zero_add, ← scan] at scanned
  refine ⟨fun placed found => ?_, fun problem found => ?_⟩
  · rw [scanned, stopped] at found
    split at found
    · cases found
    · cases behind with
      | cons c rest => cases found
      | nil =>
        cases found
        rw [List.append_nil] at shape
        exact ⟨pieces, gap, tiles, spaced, shape, rfl⟩
  · rw [scanned, stopped] at found
    split at found
    · cases found
      exact .inl rfl
    · cases behind with
      | nil => cases found
      | cons c rest =>
        cases found
        rw [Nat.zero_add]
        exact .inr ⟨pieces, gap, c, rest, _, tiles, spaced, stops_cons.mp stop, shape, rfl,
          message_obstacle_iff c⟩

theorem scan_tiles_property :
    scan "[a] = ".toList = .ok [⟨.property "a", 0⟩, ⟨.comparison .equal, 4⟩] ∧
    ∃ pieces ending, (∀ piece ∈ pieces, piece.IsTile) ∧ (∀ c ∈ ending, isSpace c) ∧
      "[a] = ".toList = layout pieces ending ∧
      [⟨.property "a", 0⟩, ⟨.comparison .equal, 4⟩] = placedFrom 0 pieces := by
  have property : scanToken (skipSpace "[a] = ".toList) = .token (.property "a") " = ".toList := rfl
  have equal : scanToken (skipSpace " = ".toList) = .token (.comparison .equal) [' '] := rfl
  have scanned : scan "[a] = ".toList = .ok [⟨.property "a", 0⟩, ⟨.comparison .equal, 4⟩] := by
    rw [scan, scanFrom_of_token property, scanFrom_of_token equal,
      scanFrom_of_space (by decide)]
    rfl
  exact ⟨scanned, (scan_tiles _).1 _ scanned⟩

/-- The word `1e` and a number, of which the word is no token without the number. -/
theorem scan_splitNumber :
    scan "1e+5.5".toList = .ok [⟨.word "1e", 0⟩, ⟨.number (.ofDecimal false ⟨55, -1⟩), 2⟩] ∧
    ∀ pieces ending, "1e+5.5".toList = layout pieces ending →
      placedFrom 0 pieces = [⟨.word "1e", 0⟩, ⟨.number (.ofDecimal false ⟨55, -1⟩), 2⟩] →
        ∃ piece ∈ pieces, scan piece.spelling ≠ .ok [⟨piece.token, 0⟩] := by
  have word : scanToken (skipSpace "1e+5.5".toList) = .token (.word "1e") "+5.5".toList := rfl
  have number : scanToken (skipSpace "+5.5".toList) =
      .token (.number (.ofDecimal false ⟨55, -1⟩)) [] := rfl
  refine ⟨?_, fun pieces ending shape placed => ?_⟩
  · rw [scan, scanFrom_of_token word, scanFrom_of_token number, scanFrom_nil]
    rfl
  · obtain _ | ⟨first, _ | ⟨second, others⟩⟩ := pieces
    · cases placed
    · simp [placedFrom] at placed
    refine ⟨first, List.mem_cons_self .., ?_⟩
    simp only [placedFrom, List.cons.injEq, Placed.mk.injEq, Nat.zero_add] at placed
    obtain ⟨⟨token, front⟩, ⟨-, place⟩, -⟩ := placed
    have gap := length_le_byteLength first.gap
    have size := length_le_byteLength first.spelling
    have gapless : first.gap = [] := List.eq_nil_of_length_eq_zero (by omega)
    have short : first.spelling.length ≤ 2 := by omega
    have begins : first.spelling ∈ "1e+5.5".toList.inits := by
      rw [List.mem_inits, shape, layout_cons, gapless]
      exact List.prefix_append ..
    have known : ∀ spelling ∈ "1e+5.5".toList.inits, spelling.length ≤ 2 →
        spelling = [] ∨ spelling = ['1'] ∨ spelling = ['1', 'e'] := by decide
    rw [token]
    obtain empty | digit | marked := known _ begins short
    · rw [empty, scan, scanFrom_nil]
      simp
    · have read : scanToken ['1'] = .token (.number (.ofDecimal false ⟨1, 0⟩)) [] := rfl
      rw [digit, scan_of_token read]
      simp
    · rw [marked, scan_of_unreadable (by decide)]
      simp

end Scanning

end CartoStyle.Expression
