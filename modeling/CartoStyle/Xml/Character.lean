import CartoStyle.Text.Basic

/-!
# Characters of XML

Which characters a document may hold, which ones begin a name and which ones continue it.
-/

namespace CartoStyle.Xml

/-- The characters that a document may hold. -/
def isXmlChar (c : Char) : Bool :=
  if c.toNat < 0x20 then c == '\t' || c == '\n' || c == '\r'
  else c.toNat != 0xFFFE && c.toNat != 0xFFFF

/-- The characters that may begin a name, with inclusive bounds. -/
def nameStartRanges : List (Nat × Nat) := [
  (0x3A, 0x3A), (0x41, 0x5A), (0x5F, 0x5F), (0x61, 0x7A), (0xC0, 0xD6), (0xD8, 0xF6), (0xF8, 0x2FF),
  (0x370, 0x37D), (0x37F, 0x1FFF), (0x200C, 0x200D), (0x2070, 0x218F), (0x2C00, 0x2FEF),
  (0x3001, 0xD7FF), (0xF900, 0xFDCF), (0xFDF0, 0xFFFD), (0x10000, 0xEFFFF)]

/-- The characters that may continue a name but not begin it, with inclusive bounds. -/
def nameContinueRanges : List (Nat × Nat) :=
  [(0x2D, 0x2E), (0x30, 0x39), (0xB7, 0xB7), (0x300, 0x36F), (0x203F, 0x2040)]

/-- The characters that may begin a name. -/
def isNameStart (c : Char) : Bool := Text.inRanges nameStartRanges c.toNat

/-- The characters of names. -/
def isNameChar (c : Char) : Bool := isNameStart c || Text.inRanges nameContinueRanges c.toNat

theorem isNameChar_of_isNameStart {c : Char} (start : isNameStart c) : isNameChar c := by
  simp [isNameChar, start]

/-- A space cannot be taken for part of a name. -/
theorem not_isNameChar_of_isSpace {c : Char} (space : Text.isSpace c) : isNameChar c = false := by
  simp only [Text.isSpace, Bool.or_eq_true, beq_iff_eq] at space
  rcases space with ((rfl | rfl) | rfl) | rfl <;> decide

end CartoStyle.Xml
