import CartoStyle.Proofs.Xml.RoundTrip
import CartoStyle.Proofs.Xml.Settled

/-!
# Trees up to line ends

XML has every line end of a text read as a line feed. The reader does that, except that a carriage
return before a reference stays, and markup in a text is written as references. `Element.normalized`
is a tree with its values settled and its texts trimmed, where the line ends are line feeds but for
the carriage returns before some characters. The tree that is read back and the one that XML asks
for are two cases of it (`Element.ofText?_document_eq_normalized`), and they are the same unless a
text strands a carriage return before markup.
-/

namespace CartoStyle.Xml

open Text (isBlank trim Stops)

/-! ## Line ends -/

/-- A text whose line ends are line feeds, while a carriage return stays before the characters that
keep it. -/
def lineFeeds (keeps : Char → Bool) : List Char → List Char
  | [] => []
  | c :: others =>
    if c = '\r' then
      if others.head? = some '\n' then lineFeeds keeps others
      else (if others.head?.any keeps then '\r' else '\n') :: lineFeeds keeps others
    else c :: lineFeeds keeps others

/-- A carriage return stands before a character of markup. -/
def strandsReturn : List Char → Bool
  | [] => false
  | c :: others => (c == '\r' && others.head?.any isMarkup) || strandsReturn others

variable {keeps : Char → Bool}

theorem lineFeeds_cons_of_ne {c : Char} (other : c ≠ '\r') (text : List Char) :
    lineFeeds keeps (c :: text) = c :: lineFeeds keeps text := if_neg other

theorem lineFeeds_return (text : List Char) : lineFeeds keeps ('\r' :: text) =
    if text.head? = some '\n' then lineFeeds keeps text
    else (if text.head?.any keeps then '\r' else '\n') :: lineFeeds keeps text := rfl

theorem interior_eq_lineFeeds (text : List Char) : interior text = lineFeeds isMarkup text := by
  induction text with
  | nil => rfl
  | cons c text ih =>
    by_cases return_ : c = '\r'
    · subst return_
      cases text with
      | nil => rfl
      | cons d text =>
        rw [interior_return_cons, lineFeeds_return, ih]
        by_cases feed : d = '\n'
        · simp [feed]
        · cases markup : isMarkup d <;> simp [feed, markup]
    · rw [interior_cons_of_ne return_, lineFeeds_cons_of_ne return_, ih]

/-- The line ends that XML asks for are those that are read, unless a carriage return is stranded.
-/
theorem lineFeeds_isMarkup_eq_iff (text : List Char) :
    lineFeeds isMarkup text = lineFeeds (fun _ => false) text ↔ strandsReturn text = false := by
  induction text with
  | nil => simp [lineFeeds, strandsReturn]
  | cons c text ih =>
    rw [strandsReturn, Bool.or_eq_false_iff, ← ih]
    by_cases return_ : c = '\r'
    · subst return_
      rw [lineFeeds_return, lineFeeds_return]
      by_cases feed : text.head? = some '\n'
      · simp [feed, show isMarkup '\n' = false by decide]
      · cases text.head?.any isMarkup <;> simp [feed]
    · simp [lineFeeds_cons_of_ne return_, return_]

/-! ## Line ends and blanks -/

theorem isBlank_lineFeeds {text : List Char} (blank : ∀ c ∈ text, isBlank c) :
    ∀ c ∈ lineFeeds keeps text, isBlank c := by
  induction text with
  | nil => exact blank
  | cons d text ih =>
    obtain ⟨here, there⟩ := List.forall_mem_cons.mp blank
    rw [lineFeeds]
    split
    · split
      · exact ih there
      · refine List.forall_mem_cons.mpr ⟨?_, ih there⟩
        split <;> decide
    · exact List.forall_mem_cons.mpr ⟨here, ih there⟩

/-- Blanks in front of a text are blanks in front of it. -/
theorem exists_lineFeeds_append (keeps : Char → Bool) {front : List Char}
    (blank : ∀ c ∈ front, isBlank c) (text : List Char) : ∃ blanks, (∀ c ∈ blanks, isBlank c) ∧
      lineFeeds keeps (front ++ text) = blanks ++ lineFeeds keeps text := by
  induction front with
  | nil => exact ⟨[], blank, rfl⟩
  | cons d front ih =>
    obtain ⟨here, there⟩ := List.forall_mem_cons.mp blank
    obtain ⟨blanks, within, same⟩ := ih there
    rw [List.cons_append, lineFeeds, same]
    split
    · split
      · exact ⟨blanks, within, rfl⟩
      · refine ⟨_ :: blanks, List.forall_mem_cons.mpr ⟨?_, within⟩, rfl⟩
        split <;> decide
    · exact ⟨d :: blanks, List.forall_mem_cons.mpr ⟨here, within⟩, rfl⟩

/-- What is put behind a text makes no difference to it if no carriage return is at its end. -/
theorem lineFeeds_concat_append (text : List Char) {c : Char} (other : c ≠ '\r')
    (rest : List Char) :
    lineFeeds keeps (text ++ c :: rest) =
      lineFeeds keeps (text ++ [c]) ++ lineFeeds keeps rest := by
  induction text with
  | nil => simp [lineFeeds_cons_of_ne other, lineFeeds]
  | cons d text ih =>
    have heads : (text ++ c :: rest).head? = (text ++ [c]).head? := by cases text <;> rfl
    rw [List.cons_append, List.cons_append, lineFeeds, lineFeeds, ih, heads]
    split
    · split <;> rfl
    · rfl

theorem exists_lineFeeds_concat (keeps : Char → Bool) (text : List Char) {c : Char}
    (other : c ≠ '\r') : ∃ before, lineFeeds keeps (text ++ [c]) = before ++ [c] := by
  induction text with
  | nil => exact ⟨[], lineFeeds_cons_of_ne other []⟩
  | cons d text ih =>
    obtain ⟨before, same⟩ := ih
    rw [List.cons_append, lineFeeds, same]
    split
    · split
      · exact ⟨before, rfl⟩
      · exact ⟨_ :: before, rfl⟩
    · exact ⟨d :: before, rfl⟩

theorem ne_return_of_not_isBlank {c : Char} (other : isBlank c = false) : c ≠ '\r' := by
  rintro rfl
  cases other

theorem stops_lineFeeds {text : List Char} (stop : Stops isBlank text) :
    Stops isBlank (lineFeeds keeps text) := by
  cases text with
  | nil => exact stop
  | cons c text =>
    have opening := Text.stops_cons.mp stop
    rw [lineFeeds_cons_of_ne (ne_return_of_not_isBlank opening)]
    exact Text.stops_cons.mpr opening

/-- It makes no difference whether a text is trimmed before or after its line ends are settled. -/
theorem trim_lineFeeds (text : List Char) :
    trim (lineFeeds keeps text) = lineFeeds keeps (trim text) := by
  obtain ⟨front, back, before, behind, parts⟩ := Text.exists_eq_append_trim text
  obtain ⟨blanks, blank, fronted⟩ := exists_lineFeeds_append keeps before (trim text ++ back)
  have first := Text.stops_trim text
  have last := Text.stops_reverse_trim text
  generalize trim text = core at parts fronted first last
  rw [parts, fronted, Text.trim_blank_append blank]
  rcases List.eq_nil_or_concat core with rfl | ⟨init, c, rfl⟩
  · exact (Text.trim_append_blank (isBlank_lineFeeds behind) []).trans Text.trim_nil
  · rw [List.concat_eq_append] at first last ⊢
    have closing : isBlank c = false := by simpa using last
    have other := ne_return_of_not_isBlank closing
    obtain ⟨most, ended⟩ := exists_lineFeeds_concat keeps init other
    rw [List.append_assoc, List.singleton_append, lineFeeds_concat_append init other,
      Text.trim_append_blank (isBlank_lineFeeds behind)]
    apply Text.trim_of_stops
    · exact stops_lineFeeds first
    · rw [ended]
      simpa using closing

/-! ## Trees -/

theorem OpenElement.text?_singleton_eq_iff {these those : List Char} :
    text? [these] = text? [those] ↔ trim these = trim those := by
  constructor
  · intro same
    rw [← toList_getD_text?, same, toList_getD_text?]
  · intro same
    rw [text?_singleton, same, text?_singleton]

/-- A text with its line ends settled and trimmed, if anything is left of it. -/
def normalizedText (keeps : Char → Bool) (text : String) : Option String :=
  OpenElement.text? [lineFeeds keeps text.toList]

theorem settledText_eq_normalizedText (text : String) :
    settledText text = normalizedText isMarkup text := by
  rw [settledText, normalizedText, OpenElement.text?_singleton_eq_iff, trim_lineEnds,
    interior_eq_lineFeeds]

/-- The text that is read back is the one that XML asks for unless what is left of it strands a
carriage return. -/
theorem normalizedText_isMarkup_eq_iff (text : String) :
    normalizedText isMarkup text = normalizedText (fun _ => false) text ↔
      strandsReturn (trim text.toList) = false := by
  rw [normalizedText, normalizedText, OpenElement.text?_singleton_eq_iff, trim_lineFeeds,
    trim_lineFeeds, lineFeeds_isMarkup_eq_iff]

namespace Element

mutual

/-- A tree whose values are texts with every line end and every tab as one space, and whose texts
are normalized. -/
def normalized (keeps : Char → Bool) : Element → Element
  | ⟨name, attributes, text, children⟩ =>
    ⟨name, attributes.mapValues AttrValue.reread, normalizedText keeps (text.getD ""),
      normalizedAll keeps children⟩

/-- Some trees, each of them normalized. -/
def normalizedAll (keeps : Char → Bool) : List Element → List Element
  | [] => []
  | first :: others => normalized keeps first :: normalizedAll keeps others

end

/-- A text has no carriage return before markup, but for blanks at its ends. -/
def hasNoReturn (_ : String) (_ : Attributes) (text : Option String) : Bool :=
  !strandsReturn (trim (text.getD "").toList)

mutual

theorem reread_eq_normalized : (element : Element) → element.reread = element.normalized isMarkup
  | ⟨name, attributes, text, children⟩ => by
    rw [reread, normalized, settledText_eq_normalizedText, rereadAll_eq_normalizedAll children]

theorem rereadAll_eq_normalizedAll : (elements : List Element) →
    rereadAll elements = normalizedAll isMarkup elements
  | [] => rfl
  | first :: others => by
    rw [rereadAll, normalizedAll, reread_eq_normalized first, rereadAll_eq_normalizedAll others]

end

mutual

theorem normalized_isMarkup_eq_iff : (element : Element) →
    (element.normalized isMarkup = element.normalized (fun _ => false) ↔
      element.every hasNoReturn)
  | ⟨name, attributes, text, children⟩ => by
    simp only [normalized, every, mk.injEq, true_and, Bool.and_eq_true, hasNoReturn,
      normalizedText_isMarkup_eq_iff, normalizedAll_isMarkup_eq_iff children, Bool.not_eq_true']

theorem normalizedAll_isMarkup_eq_iff : (elements : List Element) →
    (normalizedAll isMarkup elements = normalizedAll (fun _ => false) elements ↔
      everyOf hasNoReturn elements)
  | [] => by simp [normalizedAll, everyOf]
  | first :: others => by
    simp only [normalizedAll, everyOf, List.cons.injEq, Bool.and_eq_true,
      normalized_isMarkup_eq_iff first, normalizedAll_isMarkup_eq_iff others]

end

/-- A tree is read back from its document as XML asks for, except that a carriage return stays
before markup in a text; so it is exactly what XML asks for unless a text strands one. -/
theorem ofText?_document_eq_normalized {root : Element} (named : root.every hasNames)
    (possible : root.every hasXmlChars) :
    ofText? root.document = some (root.normalized isMarkup) ∧
      (ofText? root.document = some (root.normalized fun _ => false) ↔
        root.every hasNoReturn) := by
  rw [ofText?_document named, if_pos possible, reread_eq_normalized]
  exact ⟨rfl, Option.some_inj.trans (normalized_isMarkup_eq_iff root)⟩

/-- A river with a lake; line ends, tabs and markup in its title and its text. -/
def river : Element where
  name := "river"
  attributes := Dictionary.empty.insert "title" (.text "a\t\"b\"\r\n<c>")
  text := some "\r\n one\rtwo ]]> &amp; <three \r"
  children := [{ name := "lake", text := some "\r" }]

theorem ofText?_document_river : river.every hasNames ∧ river.every hasXmlChars ∧
    ofText? river.document = some (river.normalized fun _ => false) :=
  have named : river.every hasNames := by decide +kernel
  have possible : river.every hasXmlChars := by decide +kernel
  ⟨named, possible, (ofText?_document_eq_normalized named possible).2.mpr (by decide +kernel)⟩

/-- An element whose text has a carriage return before markup. -/
def strandedReturn : Element where
  name := "r"
  text := some "a\r<b"

/-- The carriage return before markup is read back. -/
theorem ofText?_document_strandedReturn :
    strandedReturn.every hasNames ∧ strandedReturn.every hasXmlChars ∧
      ofText? strandedReturn.document = some strandedReturn ∧
        ofText? strandedReturn.document ≠ some (strandedReturn.normalized fun _ => false) := by
  have named : strandedReturn.every hasNames := by decide +kernel
  have possible : strandedReturn.every hasXmlChars := by decide +kernel
  have read : ofText? strandedReturn.document = some strandedReturn := by
    have text : settledText "a\r<b" = some "a\r<b" := by decide +kernel
    rw [ofText?_document named, if_pos possible, strandedReturn, reread, Option.getD_some, text]
    rfl
  refine ⟨named, possible, read, fun same => ?_⟩
  have texts := congrArg Element.text (Option.some.inj (read.symm.trans same))
  exact absurd texts (by decide +kernel)

end Element

end CartoStyle.Xml
