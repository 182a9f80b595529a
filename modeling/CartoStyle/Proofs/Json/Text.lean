import CartoStyle.Json.Text

/-!
# String literals read back

A literal is cut into one piece for each character of the string that was written
(`cutLiteral_flatMap`), and these pieces join to the string (`stringOf?_pieces`).
-/

namespace CartoStyle.Json

/-- The piece that a written character is cut to: a unit where there is no letter for it. -/
def pieceOf (c : Char) : Piece :=
  if c.toNat < 0x20 ∧ c ∉ ['\x08', '\x0c', '\n', '\r', '\t'] then .unit c.toNat else .char c

/-- The pieces of the literal of a string. -/
def pieces (text : String) : List Piece := text.toList.map pieceOf

theorem hexValue?_hexDigit : ∀ n < 16, hexValue? (hexDigit n) = some n := by decide

theorem cutLiteral_of_plain {c : Char} (quote : c ≠ '"') (backslash : c ≠ '\\')
    (visible : ¬ c.toNat < 0x20) (rest : List Char) :
    cutLiteral (c :: rest) = (.char c :: (cutLiteral rest).1, (cutLiteral rest).2) := by
  rw [cutLiteral.eq_def]
  split <;> simp_all

theorem cutLiteral_code {n : Nat} (small : n < 0x20) (rest : List Char) :
    cutLiteral ('\\' :: 'u' :: '0' :: '0' :: hexDigit (n / 16) :: hexDigit (n % 16) :: rest) =
      (.unit n :: (cutLiteral rest).1, (cutLiteral rest).2) := by
  have zero : hexValue? '0' = some 0 := by decide
  rw [cutLiteral, zero, hexValue?_hexDigit _ (by omega), hexValue?_hexDigit _ (by omega)]
  simp only
  congr 3
  omega

/-- A character in its escaped form is one piece. -/
theorem cutLiteral_escapedChar (c : Char) (rest : List Char) :
    cutLiteral (escapedChar c ++ rest) =
      (pieceOf c :: (cutLiteral rest).1, (cutLiteral rest).2) := by
  unfold escapedChar
  split
  case h_8 quote backslash b f n r t =>
    split
    · rename_i control
      rw [show pieceOf c = .unit c.toNat by simp_all [pieceOf]]
      exact cutLiteral_code control rest
    · rename_i visible
      rw [show pieceOf c = .char c by simp_all [pieceOf]]
      exact cutLiteral_of_plain quote backslash visible rest
  all_goals simp [cutLiteral, escapeOf?, pieceOf]

theorem cutLiteral_flatMap (text rest : List Char) :
    cutLiteral (text.flatMap escapedChar ++ '"' :: rest) = (text.map pieceOf, .ok rest) := by
  induction text with
  | nil => simp [cutLiteral]
  | cons c text ih => rw [List.flatMap_cons, List.append_assoc, cutLiteral_escapedChar, ih]; rfl

theorem joinPieces?_map_pieceOf (text : List Char) :
    joinPieces? false (text.map pieceOf) = some text := by
  induction text with
  | nil => rfl
  | cons c text ih =>
    rw [List.map_cons, pieceOf]
    split
    · rename_i control
      have high : isHighSurrogate c.toNat = false := by
        simp only [isHighSurrogate, Bool.and_eq_false_iff, decide_eq_false_iff_not]
        omega
      have low : isLowSurrogate c.toNat = false := by
        simp only [isLowSurrogate, Bool.and_eq_false_iff, decide_eq_false_iff_not]
        omega
      rw [joinPieces?.eq_def]
      simp [high, low, ih]
    · rw [joinPieces?, ih, Option.map_some]

theorem stringOf?_pieces (text : String) : stringOf? (pieces text) = some text := by
  rw [stringOf?, pieces, joinPieces?_map_pieceOf, Option.map_some, String.ofList_toList]

end CartoStyle.Json
