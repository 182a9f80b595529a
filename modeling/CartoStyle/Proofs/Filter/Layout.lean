import CartoStyle.Proofs.Filter.Parse
import CartoStyle.Proofs.Filter.Word

/-!
# Layouts of token rows

An expression is laid out in pieces, each a token with its spelling and the gap before it; what
stands behind the last piece is the end of the text. Where each spelling is one of its token's and
neighbours are kept apart by space, the text is cut into exactly these tokens, each at the byte
where its spelling begins. Nothing else of the layout is left: two layouts of one row of tokens
are the same filter or none (`scan_layout`).
-/

namespace CartoStyle.Expression

open Text

/-- A token in a text: what stands before it, and how it is spelled. -/
structure Piece where
  gap : List Char
  spelling : List Char
  token : Token

/-- The text of some pieces and what stands behind them. -/
def layout (pieces : List Piece) (ending : List Char) : List Char :=
  pieces.foldr (fun piece rest => piece.gap ++ (piece.spelling ++ rest)) ending

/-- The tokens of some pieces, of which the first begins at some byte. -/
def placedFrom (start : Nat) : List Piece → List Placed
  | [] => []
  | piece :: others =>
    ⟨piece.token, start + byteLength piece.gap⟩ ::
      placedFrom (start + byteLength piece.gap + byteLength piece.spelling) others

theorem layout_cons (piece : Piece) (others : List Piece) (ending : List Char) :
    layout (piece :: others) ending =
      piece.gap ++ (piece.spelling ++ layout others ending) := rfl

theorem map_token_placedFrom (start : Nat) (pieces : List Piece) :
    (placedFrom start pieces).map Placed.token = pieces.map Piece.token := by
  induction pieces generalizing start with
  | nil => rfl
  | cons piece others ih => rw [placedFrom, List.map_cons, ih, List.map_cons]

/-- A piece with one of the spellings of its token. -/
structure Piece.IsSpelled (piece : Piece) : Prop where
  spaced : ∀ c ∈ piece.gap, isSpace c
  spelled : Spelling piece.token piece.spelling

/-- Pieces with a gap between neighbours, and space behind them. -/
structure IsLayout (pieces : List Piece) (ending : List Char) : Prop where
  each : ∀ piece ∈ pieces, piece.IsSpelled
  apart : ∀ piece ∈ pieces.tail, piece.gap ≠ []
  spaced : ∀ c ∈ ending, isSpace c

section Scanning

variable {pieces others : List Piece} {piece : Piece} {ending gap rest : List Char}

theorem scanFrom_of_space {size : Nat} (spaced : ∀ c ∈ gap, isSpace c) :
    scanFrom size gap = .ok [] := by
  have skipped : skipSpace gap = skipSpace [] := dropWhile_of_forall spaced
  rw [scanFrom_congr skipped, scanFrom_nil]

theorem parted_append (spaced : ∀ c ∈ gap, isSpace c) (nonempty : gap ≠ []) :
    Parted (gap ++ rest) := by
  obtain ⟨c, others, rfl⟩ := List.exists_cons_of_ne_nil nonempty
  intro d next
  cases next
  exact spaced c (List.mem_cons_self ..)

/-- Behind a piece there is space or nothing. -/
theorem IsLayout.parted (laid : IsLayout (piece :: others) ending) :
    Parted (layout others ending) := by
  cases others with
  | nil => exact fun c next => laid.spaced c (List.mem_of_mem_head? next)
  | cons second others =>
    have spelled := laid.each second (List.mem_cons_of_mem _ (List.mem_cons_self ..))
    exact parted_append spelled.spaced (laid.apart second (List.mem_cons_self ..))

theorem IsLayout.behind (laid : IsLayout (piece :: others) ending) : IsLayout others ending where
  each other member := laid.each other (List.mem_cons_of_mem _ member)
  apart other member := laid.apart other (List.mem_of_mem_tail member)
  spaced := laid.spaced

/-- The first token of a text, at its place. -/
theorem scanFrom_piece (start : Nat) {token : Token} {spelling : List Char}
    (spaced : ∀ c ∈ gap, isSpace c) (found : scanToken (spelling ++ rest) = .token token rest) :
    scanFrom (start + byteLength (gap ++ (spelling ++ rest))) (gap ++ (spelling ++ rest)) =
      (scanFrom (start + byteLength gap + byteLength spelling + byteLength rest) rest).map
        (⟨token, start + byteLength gap⟩ :: ·) := by
  have stop : Stops isSpace (spelling ++ rest) := stops_of_scanToken (by rw [found]; nofun)
  have skipped := skipSpace_append spaced stop
  have read : scanToken (skipSpace (gap ++ (spelling ++ rest))) = .token token rest := by
    rw [skipped, found]
  have place : start + byteLength (gap ++ (spelling ++ rest)) - byteLength (spelling ++ rest) =
      start + byteLength gap := by
    rw [byteLength_append, ← Nat.add_assoc, Nat.add_sub_cancel]
  have size : start + byteLength (gap ++ (spelling ++ rest)) =
      start + byteLength gap + byteLength spelling + byteLength rest := by
    simp only [byteLength_append, Nat.add_assoc]
  rw [scanFrom_of_token read, skipped, place, size]

theorem scanFrom_layout (laid : IsLayout pieces ending) (start : Nat) :
    scanFrom (start + byteLength (layout pieces ending)) (layout pieces ending) =
      .ok (placedFrom start pieces) := by
  induction pieces generalizing start with
  | nil => exact scanFrom_of_space laid.spaced
  | cons piece others ih =>
    obtain ⟨spaced, spelled⟩ := laid.each piece (List.mem_cons_self ..)
    have first := spelled.scanToken_append laid.parted
    rw [layout_cons, scanFrom_piece start spaced first, ih laid.behind]
    rfl

/-- However a row of tokens is laid out, its text is cut into these tokens, each where its spelling
begins, and any other layout of the row is the same filter or none. -/
theorem scan_layout (laid : IsLayout pieces ending) :
    scan (layout pieces ending) = .ok (placedFrom 0 pieces) ∧
    ∀ pieces' ending', IsLayout pieces' ending' →
      pieces'.map Piece.token = pieces.map Piece.token → ∀ filter,
        (parse (String.ofList (layout pieces ending)) = .ok filter ↔
          parse (String.ofList (layout pieces' ending')) = .ok filter) := by
  have scanned {pieces : List Piece} {ending : List Char} (laid : IsLayout pieces ending) :
      scan (layout pieces ending) = .ok (placedFrom 0 pieces) := by
    have found := scanFrom_layout laid 0
    rwa [Nat.zero_add] at found
  have parsed {pieces : List Piece} {ending : List Char} (laid : IsLayout pieces ending)
      (filter : Filter) : parse (String.ofList (layout pieces ending)) = .ok filter ↔
        Denotes depthLimit (pieces.map Piece.token) filter := by
    have found := scanned laid
    rw [← String.toList_ofList (l := layout pieces ending)] at found
    rw [parse_of_scan found, ofTokens_eq_ok_iff, map_token_placedFrom]
  refine ⟨scanned laid, fun pieces' ending' laid' same filter => ?_⟩
  rw [parsed laid, parsed laid', same]

/-- The pieces of `NoT [größe] <> "O'Brien"` and of `Or [width] = +1.50e1`. -/
def oddPieces : List Piece := [
  ⟨"\t".toList, "NoT".toList, .negation⟩,
  ⟨" ".toList, "[größe]".toList, .property "größe"⟩,
  ⟨" ".toList, "<>".toList, .comparison .notEqual⟩,
  ⟨"  ".toList, "\"O\\'Brien\"".toList, .text "O'Brien"⟩,
  ⟨"\r\n".toList, "Or".toList, .combination .or⟩,
  ⟨" ".toList, "[width]".toList, .property "width"⟩,
  ⟨" ".toList, "=".toList, .comparison .equal⟩,
  ⟨" ".toList, "+1.50e1".toList, .number (.ofDecimal false ⟨150, -1⟩)⟩]

theorem isLayout_oddPieces : IsLayout oddPieces " ".toList where
  each := by
    have spaced : ∀ piece ∈ oddPieces, ∀ c ∈ piece.gap, isSpace c := by decide
    have negated : Spelling .negation "NoT".toList := .keyword ⟨("not", .negation), by decide⟩
    have size : Spelling (.property "größe") "[größe]".toList :=
      @Spelling.property "größe".toList (by decide) (by decide)
    have unequal : Spelling (.comparison .notEqual) "<>".toList :=
      @Spelling.symbol ("<>", _) (by decide)
    have brien : Spelling (.text "O'Brien") "\"O\\'Brien\"".toList :=
      @Spelling.text '"' "O'Brien".toList "O\\'Brien".toList (by decide)
        (.plain (by decide) (by decide) (.escape _ (.plain (by decide) (by decide)
          (.plain (by decide) (by decide) (.plain (by decide) (by decide)
          (.plain (by decide) (by decide) (.plain (by decide) (by decide) .nil)))))))
    have either : Spelling (.combination .or) "Or".toList :=
      .keyword ⟨("or", .combination .or), by decide⟩
    have width : Spelling (.property "width") "[width]".toList :=
      @Spelling.property "width".toList (by decide) (by decide)
    have equal : Spelling (.comparison .equal) "=".toList :=
      @Spelling.symbol ("=", _) (by decide)
    have fifteen : Spelling (.number (.ofDecimal false ⟨150, -1⟩)) "+1.50e1".toList := by
      have mantissa : IsMantissa "1.50".toList "150".toList 2 :=
        @IsMantissa.point ['1'] ['5', '0'] (by decide) (by decide) (by decide)
      have exponent : IsExponent "e1".toList 1 :=
        @IsExponent.digits 'e' [] ['1'] false (by decide) .absent (by decide) (by decide)
      exact .number (.parts .plus mantissa exponent)
    simp only [oddPieces, List.forall_mem_cons] at spaced ⊢
    obtain ⟨s₁, s₂, s₃, s₄, s₅, s₆, s₇, s₈, -⟩ := spaced
    exact ⟨⟨s₁, negated⟩, ⟨s₂, size⟩, ⟨s₃, unequal⟩, ⟨s₄, brien⟩, ⟨s₅, either⟩, ⟨s₆, width⟩,
      ⟨s₇, equal⟩, ⟨s₈, fifteen⟩, nofun⟩
  apart := by decide
  spaced := by decide

theorem scan_oddPieces :
    IsLayout oddPieces " ".toList ∧
    scan "\tNoT [größe] <>  \"O\\'Brien\"\r\nOr [width] = +1.50e1 ".toList = .ok [
      ⟨.negation, 1⟩, ⟨.property "größe", 5⟩, ⟨.comparison .notEqual, 15⟩, ⟨.text "O'Brien", 19⟩,
      ⟨.combination .or, 31⟩, ⟨.property "width", 34⟩, ⟨.comparison .equal, 42⟩,
      ⟨.number (.ofDecimal false ⟨150, -1⟩), 44⟩] ∧
    ∀ filter, (parse (String.ofList (layout oddPieces " ".toList)) = .ok filter ↔
      parse (String.ofList (layout oddPieces "\r\n".toList)) = .ok filter) := by
  have laid := isLayout_oddPieces
  have other : IsLayout oddPieces "\r\n".toList := ⟨laid.each, laid.apart, by decide⟩
  exact ⟨laid, (scan_layout laid).1, (scan_layout laid).2 _ _ other rfl⟩

end Scanning

end CartoStyle.Expression
