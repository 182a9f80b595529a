import CartoStyle.Proofs.Text.Span
import CartoStyle.Xml.Character

/-!
# Visible characters

The texts that are composed and not given, such as numbers and keywords, consist of the visible
characters of ASCII. None of these is blank, and documents may hold every one of them. Which texts
consist of some characters (`Charset.holds`) is then a matter of the texts that are given.
-/

namespace CartoStyle.Text

/-- The visible characters of ASCII. -/
def isVisible (c : Char) : Bool := 0x21 ≤ c.toNat && c.toNat ≤ 0x7E

theorem isVisible_iff {c : Char} : isVisible c = true ↔ 0x21 ≤ c.toNat ∧ c.toNat ≤ 0x7E := by
  simp [isVisible]

theorem isVisible_of_isDigit {c : Char} (digit : c.isDigit) : isVisible c := by
  have code := Char.isDigit_iff_toNat.mp digit
  simp only [Char.reduceToNat] at code
  rw [isVisible_iff]
  omega

theorem not_isBlank_of_isVisible {c : Char} (visible : isVisible c) : isBlank c = false := by
  have code := isVisible_iff.mp visible
  simp only [isBlank, Bool.or_eq_false_iff, Bool.and_eq_false_iff, decide_eq_false_iff_not,
    beq_eq_false_iff_ne]
  omega

theorem not_isSpace_of_isVisible {c : Char} (visible : isVisible c) : isSpace c = false := by
  cases space : isSpace c with
  | false => rfl
  | true => rw [← not_isBlank_of_isVisible visible, isBlank_of_isSpace space]

theorem isXmlChar_of_isVisible {c : Char} (visible : isVisible c) : Xml.isXmlChar c := by
  have code := isVisible_iff.mp visible
  rw [Xml.isXmlChar, if_neg (by omega)]
  simp only [Bool.and_eq_true, bne_iff_ne]
  omega

/-- Trimming leaves visible characters alone. -/
theorem trim_of_isVisible {text : List Char} (visible : ∀ c ∈ text, isVisible c) :
    trim text = text :=
  trim_of_forall fun c member => not_isBlank_of_isVisible (visible c member)

/-- The capital letters of ASCII. -/
def capitals : List Char := "ABCDEFGHIJKLMNOPQRSTUVWXYZ".toList

/-- Only capitals have another letter of the other case that counts as the same. -/
theorem toLower_cases (c : Char) : c.toLower = c ∨ c ∈ capitals := by
  have listed : ∀ n ≤ 90, 65 ≤ n → Char.ofNat n ∈ capitals := by decide
  delta Char.toLower
  split
  · rename_i capital
    refine .inr ?_
    have member := listed c.toNat capital.2 capital.1
    rwa [Char.ofNat_toNat] at member
  · exact .inl rfl

/-- A choice of characters with the visible ones and the blank among them. -/
structure Charset where
  has : Char → Bool
  has_of_isVisible {c : Char} (visible : isVisible c) : has c
  has_blank : has ' '

namespace Charset

/-- The characters of documents. -/
def xml : Charset := ⟨Xml.isXmlChar, isXmlChar_of_isVisible, by decide⟩

/-- The characters that stay in a document as they are, wherever they stand. -/
def plain : Charset where
  has c := Xml.isXmlChar c && c != '\t' && c != '\n' && c != '\r'
  has_of_isVisible {c} visible := by
    have code := isVisible_iff.mp visible
    have other (d : Char) (control : d.toNat < 0x21) : c ≠ d := by
      rintro rfl
      omega
    simp [isXmlChar_of_isVisible visible, other]
  has_blank := by decide

/-- A text of characters from a choice. -/
def holds (charset : Charset) (text : String) : Bool := text.toList.all charset.has

variable {charset : Charset} {text : String}

theorem has_of_holds (all : charset.holds text) {c : Char} (member : c ∈ text.toList) :
    charset.has c :=
  List.all_eq_true.mp all c member

/-- The characters of what is put around texts that are given. -/
theorem all_has_of_ordinary (charset : Charset) {chars : List Char}
    (ordinary : ∀ c ∈ chars, isVisible c ∨ c = ' ') : chars.all charset.has := by
  apply List.all_eq_true.mpr
  intro c member
  rcases ordinary c member with visible | rfl
  · exact charset.has_of_isVisible visible
  · exact charset.has_blank

theorem plain_has_iff {c : Char} :
    plain.has c ↔ Xml.isXmlChar c ∧ c ≠ '\t' ∧ c ≠ '\n' ∧ c ≠ '\r' := by
  simp [plain, and_assoc]

theorem xml_holds_of_plain (all : plain.holds text) : xml.holds text :=
  List.all_eq_true.mpr fun _ member => (plain_has_iff.mp (has_of_holds all member)).1

theorem holds_of_isVisible (charset : Charset) (visible : ∀ c ∈ text.toList, isVisible c) :
    charset.holds text :=
  List.all_eq_true.mpr fun c member => charset.has_of_isVisible (visible c member)

end Charset

end CartoStyle.Text
