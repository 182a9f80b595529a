import CartoStyle.Proofs.Text.Span
import CartoStyle.Xml.Render
import CartoStyle.Xml.Token

/-!
 # The tokens of a written element

The document of an element is cut into the tags, values and texts that it was made of. Values and
texts stand there as they are spelled, with the characters of markup escaped, so none of them can
end a tag or begin one. Names must be names; where a value or a text has a character that documents
may not hold, there are no tokens at all.
-/

namespace CartoStyle.Xml

open Text (Stops)

/-! ## Steps of the scanner -/

namespace Scanner

variable {α β : Type} {text after : List Char}

/-- A sequence whose first part succeeds goes on with the second. -/
theorem run_bind_of_run {first : Scanner α} {value : α} (ran : first.run text = some (value, after))
    (next : α → Scanner β) : (first >>= next).run text = (next value).run after := by
  rw [run_bind, ran]
  rfl

theorem run_bind_of_none {first : Scanner α} (failed : first.run text = none)
    (next : α → Scanner β) : (first >>= next).run text = none := by
  rw [run_bind, failed]
  rfl

@[simp] theorem run_literal (word : String) (after : List Char) :
    (literal word).run (word.toList ++ after) = some ((), after) := by
  have here : word.toList.isPrefixOf (word.toList ++ after) := by simp
  rw [literal, run_bind, run_takes, if_pos here]
  simp [require]

@[simp] theorem run_sees (word : String) (text : List Char) :
    (sees word).run text = some (word.toList.isPrefixOf text, text) := rfl

@[simp] theorem run_rest (text : List Char) : rest.run text = some (text, text) := rfl

@[simp] theorem run_atEnd (text : List Char) : atEnd.run text = some (text.isEmpty, text) := rfl

@[simp] theorem run_require (condition : Bool) (text : List Char) :
    (require condition).run text = if condition then some ((), text) else none := by
  cases condition <;> rfl

@[simp] theorem run_one (test : Char → Bool) (c : Char) (text : List Char) :
    (one test).run (c :: text) = if test c then some (c, text) else none := rfl

/-- A word is not taken if another character than its first is next. -/
theorem run_takes_of_ne {word : String} {c d : Char} {others : List Char}
    (shape : word.toList = d :: others) (other : d ≠ c) :
    (takes word).run (c :: text) = some (false, c :: text) := by
  have differs : (d == c) = false := beq_eq_false_iff_ne.mpr other
  rw [run_takes, shape, List.isPrefixOf, differs]
  rfl

theorem run_takeWhile_eq (test : Char → Bool) (text : List Char) :
    (takeWhile test).run text = some (text.takeWhile test, text.dropWhile test) := rfl

theorem run_takeWhile {test : Char → Bool} (taken : List Char) (inside : ∀ c ∈ taken, test c)
    (stop : Stops test after) : (takeWhile test).run (taken ++ after) = some (taken, after) := by
  rw [run_takeWhile_eq, Text.takeWhile_append_of_stops inside stop,
    Text.dropWhile_append_of_stops inside stop]

theorem run_takeWhile_of_stops {test : Char → Bool} (stop : Stops test text) :
    (takeWhile test).run text = some ([], text) :=
  run_takeWhile [] (fun _ member => nomatch member) stop

theorem run_spaces_of_stops (stop : Stops Text.isSpace text) :
    spaces.run text = some ((), text) := by
  rw [spaces, run_bind_of_run (run_takeWhile_of_stops stop)]
  rfl

theorem run_documentChars_eq (test : Char → Bool) (text : List Char) :
    (documentChars test).run text =
      if (text.dropWhile fun c => isXmlChar c && test c).head?.all isXmlChar then
        some (text.takeWhile fun c => isXmlChar c && test c,
          text.dropWhile fun c => isXmlChar c && test c)
      else none := by
  simp only [documentChars, run_bind, run_takeWhile_eq, run_rest, Option.bind_some]
  cases next : (text.dropWhile fun c => isXmlChar c && test c).head? with
  | none => rfl
  | some c => cases possible : isXmlChar c <;> simp [possible]

theorem run_documentChars_cons {test : Char → Bool} {c : Char} (passes : test c) :
    (documentChars test).run (c :: text) =
      if isXmlChar c then ((documentChars test).run text).map fun (taken, left) =>
        (c :: taken, left)
      else none := by
  rw [run_documentChars_eq, run_documentChars_eq]
  cases possible : isXmlChar c with
  | false => simp [possible]
  | true =>
    simp only [List.takeWhile_cons, List.dropWhile_cons, possible, passes, Bool.and_self, if_true]
    split <;> rfl

/-- Characters that documents may hold are read up to one that fails the test; one that documents
may not hold makes the reading fail. -/
theorem run_documentChars {test : Char → Bool} {taken : List Char} (inside : ∀ c ∈ taken, test c)
    {c : Char} (fails : test c = false) (possible : isXmlChar c) :
    (documentChars test).run (taken ++ c :: after) =
      if taken.all isXmlChar then some (taken, c :: after) else none := by
  induction taken with
  | nil =>
    have stop : Stops (fun c => isXmlChar c && test c) (c :: after) := by simp [fails]
    rw [List.nil_append, documentChars, run_bind_of_run (run_takeWhile_of_stops stop)]
    simp [possible]
  | cons d taken ih =>
    rw [List.cons_append, run_documentChars_cons (inside d (List.mem_cons_self ..)),
      ih fun e member => inside e (List.mem_cons_of_mem _ member), List.all_cons]
    cases isXmlChar d with
    | false => rfl
    | true => cases taken.all isXmlChar <;> rfl

end Scanner

/-! ## Names -/

/-- A name without a qualifier. -/
def isPlainName (name : String) : Bool :=
  name.toList.head?.any isNameStart && name.toList.all fun c => isNameChar c && c != ':'

/-- A name that has no qualifier. -/
def QualifiedName.plain (name : String) : QualifiedName := ⟨"", name⟩

theorem isNameChar_of_isPlainName {name : String} (plain : isPlainName name) :
    ∀ c ∈ name.toList, isNameChar c = true := by
  simp only [isPlainName, Bool.and_eq_true, List.all_eq_true] at plain
  exact fun c member => (plain.2 c member).1

theorem toList_of_isPlainName {name : String} (plain : isPlainName name) :
    ∃ c others, name.toList = c :: others ∧ isNameStart c = true := by
  simp only [isPlainName, Bool.and_eq_true] at plain
  cases shape : name.toList with
  | nil =>
    rw [shape] at plain
    cases plain.1
  | cons c others =>
    rw [shape] at plain
    exact ⟨c, others, rfl, by simpa using plain.1⟩

theorem qualify?_of_isPlainName {name : String} (plain : isPlainName name) :
    Scanner.qualify? name.toList = some (.plain name) := by
  have colonless : ∀ c ∈ name.toList, (c != ':') = true := by
    simp only [isPlainName, Bool.and_eq_true, List.all_eq_true] at plain
    exact fun c member => (plain.2 c member).2
  obtain ⟨c, others, shape, start⟩ := toList_of_isPlainName plain
  have absent : name.toList.contains ':' = false := by
    simp only [List.contains_eq_mem, decide_eq_false_iff_not]
    intro member
    simpa using colonless ':' member
  have begins : name.toList.head?.any isNameStart = true := by simp [shape, start]
  simp only [Scanner.qualify?, Text.takeWhile_of_forall colonless,
    Text.dropWhile_of_forall colonless, absent]
  simp [begins, QualifiedName.plain]

/-- What a name starts with is no markup. -/
theorem ne_of_isNameStart {c : Char} (start : isNameStart c) :
    c ≠ '!' ∧ c ≠ '?' ∧ c ≠ '/' ∧ c ≠ '>' := by
  refine ⟨?_, ?_, ?_, ?_⟩ <;> rintro rfl <;> exact absurd start (by decide)

theorem not_isSpace_of_isNameStart {c : Char} (start : isNameStart c) : Text.isSpace c = false := by
  cases space : Text.isSpace c with
  | false => rfl
  | true =>
    have := not_isNameChar_of_isSpace space
    rw [isNameChar_of_isNameStart start] at this
    cases this

namespace Scanner

theorem run_qualifiedName {name : String} (plain : isPlainName name) {after : List Char}
    (stop : Stops isNameChar after) :
    qualifiedName.run (name.toList ++ after) = some (.plain name, after) := by
  rw [qualifiedName, run_bind_of_run (run_takeWhile _ (isNameChar_of_isPlainName plain) stop)]
  simp only [qualify?_of_isPlainName plain, run_pure]

end Scanner

/-! ## Values as they are spelled -/

/-- A text with the characters of markup escaped, as it stands between quotes. -/
def spelledInQuotes (value : List Char) : List Char := value.flatMap valueEscape

/-- A text with the characters of markup escaped, as it stands between tags. -/
def spelledInText (text : List Char) : List Char := text.flatMap textEscape

/-- Three characters are markup everywhere; every other one is spelled as it is. -/
theorem textEscape_cases (c : Char) :
    c = '<' ∨ c = '>' ∨ c = '&' ∨ (c ≠ '<' ∧ c ≠ '>' ∧ c ≠ '&') ∧ textEscape c = [c] := by
  unfold textEscape
  split
  · exact .inl rfl
  · exact .inr (.inl rfl)
  · exact .inr (.inr (.inl rfl))
  · rename_i less greater and
    exact .inr (.inr (.inr ⟨⟨less, greater, and⟩, rfl⟩))

/-- Two more are markup between quotes. -/
theorem valueEscape_cases (c : Char) :
    c = '\'' ∨ c = '"' ∨ (c ≠ '\'' ∧ c ≠ '"') ∧ valueEscape c = textEscape c := by
  unfold valueEscape
  split
  · exact .inl rfl
  · exact .inr (.inl rfl)
  · rename_i single double
    exact .inr (.inr ⟨⟨single, double⟩, rfl⟩)

theorem textEscape_delimited (c : Char) : ∀ d ∈ textEscape c, d ≠ '<' ∧ d ≠ '>' := by
  rcases textEscape_cases c with rfl | rfl | rfl | ⟨⟨less, greater, _⟩, plain⟩
  · decide
  · decide
  · decide
  · simp [plain, less, greater]

theorem valueEscape_delimited (c : Char) : ∀ d ∈ valueEscape c, d ≠ '<' ∧ d ≠ '"' := by
  rcases valueEscape_cases c with rfl | rfl | ⟨⟨_, double⟩, same⟩
  · decide
  · decide
  rw [same]
  rcases textEscape_cases c with rfl | rfl | rfl | ⟨⟨less, _, _⟩, plain⟩
  · decide
  · decide
  · decide
  · simp [plain, less, double]

theorem all_isXmlChar_textEscape (c : Char) : (textEscape c).all isXmlChar = isXmlChar c := by
  rcases textEscape_cases c with rfl | rfl | rfl | ⟨_, plain⟩
  · decide
  · decide
  · decide
  · simp [plain]

theorem all_isXmlChar_valueEscape (c : Char) : (valueEscape c).all isXmlChar = isXmlChar c := by
  rcases valueEscape_cases c with rfl | rfl | ⟨_, same⟩
  · decide
  · decide
  · rw [same, all_isXmlChar_textEscape]

theorem spelledInText_ne_nil {text : List Char} (nonempty : text ≠ []) :
    spelledInText text ≠ [] := by
  obtain ⟨c, others, rfl⟩ := List.exists_cons_of_ne_nil nonempty
  rw [spelledInText, List.flatMap_cons]
  rcases textEscape_cases c with rfl | rfl | rfl | ⟨_, plain⟩
  · exact List.cons_ne_nil _ _
  · exact List.cons_ne_nil _ _
  · exact List.cons_ne_nil _ _
  · rw [plain]
    exact List.cons_ne_nil _ _

theorem spelledInText_eq_self {text : List Char} (plain : ∀ c ∈ text, textEscape c = [c]) :
    spelledInText text = text := by
  induction text with
  | nil => rfl
  | cons c text ih =>
    have others := ih fun d member => plain d (List.mem_cons_of_mem _ member)
    rw [spelledInText, List.flatMap_cons, plain c (List.mem_cons_self ..)]
    exact congrArg (c :: ·) others

theorem all_isXmlChar_spelledInQuotes (value : List Char) :
    (spelledInQuotes value).all isXmlChar = value.all isXmlChar := by
  simp [spelledInQuotes, List.all_flatMap, all_isXmlChar_valueEscape]

theorem all_isXmlChar_spelledInText (text : List Char) :
    (spelledInText text).all isXmlChar = text.all isXmlChar := by
  simp [spelledInText, List.all_flatMap, all_isXmlChar_textEscape]

/-! ## Tags -/

/-- Attributes as they are spelled in a tag. -/
def spelledAttributes (attributes : Attributes) : List (QualifiedName × List Char) :=
  attributes.entries.map fun entry => (.plain entry.1, spelledInQuotes entry.2.shown.toList)

/-- Names of attributes that have no qualifier and declare nothing. -/
def hasPlainNames (attributes : Attributes) : Bool :=
  attributes.entries.all fun entry => isPlainName entry.1 && entry.1 != "xmlns"

/-- Values that documents may hold. -/
def hasXmlValues (attributes : Attributes) : Bool :=
  attributes.entries.all fun entry => entry.2.shown.toList.all isXmlChar

/-- How a start tag ends. -/
def tagEnding (closed : Bool) : List Char := if closed then ['/', '>'] else ['>']

namespace Scanner

theorem run_spelledValue (value after : List Char) :
    spelledValue.run ('"' :: (spelledInQuotes value ++ '"' :: after)) =
      if value.all isXmlChar then some (spelledInQuotes value, after) else none := by
  have inside : ∀ c ∈ spelledInQuotes value, (c != '"' && c != '<') = true := by
    intro c member
    obtain ⟨d, _, spelled⟩ := List.mem_flatMap.mp member
    obtain ⟨less, double⟩ := valueEscape_delimited d c spelled
    simp [less, double]
  have content : (documentChars fun c => c != '"' && c != '<').run
      (spelledInQuotes value ++ '"' :: after) = _ :=
    run_documentChars inside (by decide) (by decide)
  have opening : (one isQuote).run ('"' :: (spelledInQuotes value ++ '"' :: after)) =
      some ('"', spelledInQuotes value ++ '"' :: after) := rfl
  rw [all_isXmlChar_spelledInQuotes] at content
  rw [spelledValue, run_bind_of_run opening]
  split
  · rename_i possible
    rw [if_pos possible] at content
    rw [run_bind_of_run content]
    simp
  · rename_i impossible
    rw [if_neg impossible] at content
    rw [run_bind_of_none content]

theorem run_spelledAttribute {name : String} (plain : isPlainName name) (value after : List Char) :
    spelledAttribute.run (name.toList ++ '=' :: '"' :: (spelledInQuotes value ++ '"' :: after)) =
      if value.all isXmlChar then some ((.plain name, spelledInQuotes value), after) else none := by
  have named : qualifiedName.run
      (name.toList ++ '=' :: '"' :: (spelledInQuotes value ++ '"' :: after)) =
      some (.plain name, '=' :: '"' :: (spelledInQuotes value ++ '"' :: after)) :=
    run_qualifiedName plain (Text.stops_cons.mpr (by decide))
  have before : spaces.run ('=' :: '"' :: (spelledInQuotes value ++ '"' :: after)) =
      some ((), '=' :: '"' :: (spelledInQuotes value ++ '"' :: after)) :=
    run_spaces_of_stops (Text.stops_cons.mpr rfl)
  have equals : (literal "=").run ('=' :: '"' :: (spelledInQuotes value ++ '"' :: after)) =
      some ((), '"' :: (spelledInQuotes value ++ '"' :: after)) := run_literal "=" _
  have behind : spaces.run ('"' :: (spelledInQuotes value ++ '"' :: after)) =
      some ((), '"' :: (spelledInQuotes value ++ '"' :: after)) :=
    run_spaces_of_stops (Text.stops_cons.mpr rfl)
  rw [spelledAttribute, run_bind_of_run named, run_bind_of_run before, run_bind_of_run equals,
    run_bind_of_run behind, run_bind, run_spelledValue]
  split <;> rfl

/-- An attribute after the space in front of it. -/
theorem run_tagPart_attribute {name : String} (plain : isPlainName name)
    (value after : List Char) :
    (tagPart false).run
        (' ' :: (name.toList ++ '=' :: '"' :: (spelledInQuotes value ++ '"' :: after))) =
      if value.all isXmlChar then
        some (some (.attribute (.plain name) (spelledInQuotes value), false), after)
      else none := by
  obtain ⟨c, others, shape, start⟩ := toList_of_isPlainName plain
  have spelled := run_spelledAttribute plain value after
  rw [shape, List.cons_append] at spelled ⊢
  obtain ⟨_, _, slash, bracket⟩ := ne_of_isNameStart start
  have spaced : (takeWhile Text.isSpace).run
      (' ' :: c :: (others ++ '=' :: '"' :: (spelledInQuotes value ++ '"' :: after))) =
      some ([' '], c :: (others ++ '=' :: '"' :: (spelledInQuotes value ++ '"' :: after))) :=
    run_takeWhile [' '] (by decide)
      (Text.stops_cons.mpr (not_isSpace_of_isNameStart start))
  rw [tagPart, run_bind_of_run (run_atEnd _), if_neg (by simp), run_bind_of_run spaced]
  simp only
  rw [run_bind_of_run (run_takes_of_ne rfl bracket.symm), if_neg (by simp),
    run_bind_of_run (run_takes_of_ne rfl slash.symm), if_neg (by simp), run_bind, run_require]
  simp only [List.isEmpty_cons, Bool.not_false, if_true, Option.bind_some, run_bind, spelled]
  split <;> rfl

theorem run_tagPart_ending (closed : Bool) (after : List Char) :
    (tagPart false).run (tagEnding closed ++ after) =
      some (some (.ending closed, true), after) := by
  cases closed <;> rfl

/-- An attribute as it is written into a tag. -/
def entryChars (entry : String × AttrValue) : List Char :=
  ' ' :: (entry.1.toList ++ '=' :: '"' :: (spelledInQuotes entry.2.shown.toList ++ ['"']))

theorem attributeChars_eq (attributes : Attributes) :
    attributeChars attributes = attributes.entries.flatMap entryChars := by
  simp only [attributeChars, List.append_assoc, List.cons_append]
  rfl

/-- What the scanner makes of an attribute. -/
def entryPart (entry : String × AttrValue) : TagPart :=
  .attribute (.plain entry.1) (spelledInQuotes entry.2.shown.toList)

theorem run_tagParts {entries : List (String × AttrValue)}
    (plain : ∀ entry ∈ entries, isPlainName entry.1) (closed : Bool) (after : List Char) :
    (unfold tagPart advances_tagPart false).run
        (entries.flatMap entryChars ++ (tagEnding closed ++ after)) =
      if entries.all fun entry => entry.2.shown.toList.all isXmlChar then
        some (entries.map entryPart ++ [.ending closed], after)
      else none := by
  induction entries with
  | nil =>
    have ended : (unfold tagPart advances_tagPart true).run after = some ([], after) := by
      rw [run_unfold]
      rfl
    rw [List.flatMap_nil, List.nil_append, run_unfold, run_tagPart_ending]
    simp only [ended]
    rfl
  | cons entry entries ih =>
    have first := run_tagPart_attribute (plain entry (List.mem_cons_self ..))
      entry.2.shown.toList (entries.flatMap entryChars ++ (tagEnding closed ++ after))
    have others := ih fun other member => plain other (List.mem_cons_of_mem _ member)
    have shape : (entry :: entries).flatMap entryChars ++ (tagEnding closed ++ after) =
        ' ' :: (entry.1.toList ++ '=' :: '"' :: (spelledInQuotes entry.2.shown.toList ++ '"' ::
          (entries.flatMap entryChars ++ (tagEnding closed ++ after)))) := by
      simp [entryChars]
    rw [shape, run_unfold, first, List.all_cons]
    cases entry.2.shown.toList.all isXmlChar with
    | false => rfl
    | true =>
      simp only [if_true, others, Bool.true_and]
      split <;> rfl

theorem stops_isNameChar_attributeChars (attributes : Attributes) (closed : Bool)
    (after : List Char) :
    Stops isNameChar (attributeChars attributes ++ (tagEnding closed ++ after)) := by
  rw [attributeChars_eq]
  cases attributes.entries with
  | nil => cases closed <;> exact Text.stops_cons.mpr (by decide)
  | cons entry entries => exact Text.stops_cons.mpr (by decide)

theorem filterMap_attribute? (attributes : Attributes) (closed : Bool) :
    (attributes.entries.map entryPart ++ [TagPart.ending closed]).filterMap TagPart.attribute? =
      spelledAttributes attributes := by
  rw [spelledAttributes]
  induction attributes.entries with
  | nil => rfl
  | cons entry entries ih => exact congrArg _ ih

theorem findSome?_ending? (entries : List (String × AttrValue)) (closed : Bool) :
    (entries.map entryPart ++ [TagPart.ending closed]).findSome? TagPart.ending? = some closed := by
  induction entries with
  | nil => rfl
  | cons entry entries ih => exact ih

/-- The start tag of an element, with its attributes as they are spelled. -/
theorem run_startTag {name : String} (plain : isPlainName name) {attributes : Attributes}
    (plainNames : hasPlainNames attributes) (closed : Bool) (after : List Char) :
    startTag.run
      ('<' :: (name.toList ++ (attributeChars attributes ++ (tagEnding closed ++ after)))) =
      if hasXmlValues attributes then
        some (.start (.plain name) (spelledAttributes attributes) closed, after)
      else none := by
  have names : ∀ entry ∈ attributes.entries, isPlainName entry.1 = true := by
    intro entry member
    have both := List.all_eq_true.mp plainNames entry member
    exact (Bool.and_eq_true_iff.mp both).1
  have bracket : (literal "<").run
      ('<' :: (name.toList ++ (attributeChars attributes ++ (tagEnding closed ++ after)))) =
      some ((), name.toList ++ (attributeChars attributes ++ (tagEnding closed ++ after))) :=
    run_literal "<" _
  have named := run_qualifiedName plain (stops_isNameChar_attributeChars attributes closed after)
  have parts := run_tagParts names closed after
  rw [← attributeChars_eq] at parts
  rw [startTag, run_bind_of_run bracket, run_bind_of_run named, run_bind, parts, hasXmlValues]
  split
  · simp only [Option.bind_some, filterMap_attribute?, findSome?_ending?, run_pure]
  · rfl

theorem run_endTag {name : String} (plain : isPlainName name) (after : List Char) :
    endTag.run ('<' :: '/' :: (name.toList ++ '>' :: after)) =
      some (.finish (.plain name), after) := by
  have bracket : (literal "</").run ('<' :: '/' :: (name.toList ++ '>' :: after)) =
      some ((), name.toList ++ '>' :: after) := run_literal "</" _
  have named : qualifiedName.run (name.toList ++ '>' :: after) =
      some (.plain name, '>' :: after) :=
    run_qualifiedName plain (Text.stops_cons.mpr (by decide))
  have gap : spaces.run ('>' :: after) = some ((), '>' :: after) :=
    run_spaces_of_stops (Text.stops_cons.mpr rfl)
  have closing : (literal ">").run ('>' :: after) = some ((), after) := run_literal ">" _
  rw [endTag, run_bind_of_run bracket, run_bind_of_run named, run_bind_of_run gap,
    run_bind_of_run closing]
  rfl

theorem splitAtWord?_eq_none {word text : List Char} {c : Char} (within : c ∈ word)
    (absent : c ∉ text) : splitAtWord? word text = none := by
  have nonempty : word.isEmpty = false := by
    cases word with
    | nil => cases within
    | cons => rfl
  induction text with
  | nil => simp [splitAtWord?, nonempty]
  | cons d text ih =>
    have differs : word.isPrefixOf (d :: text) = false := by
      apply Bool.eq_false_iff.mpr
      intro here
      exact absent ((List.isPrefixOf_iff_prefix.mp here).subset within)
    have others := ih fun member => absent (List.mem_cons_of_mem _ member)
    simp [splitAtWord?, differs, others]

/-- A text up to the tag behind it. -/
theorem run_text {content : List Char} (nonempty : content ≠ []) (after : List Char) :
    text.run (spelledInText content ++ '<' :: after) =
      if content.all isXmlChar then some (.text (spelledInText content), '<' :: after)
      else none := by
  have delimited : ∀ c ∈ spelledInText content, c ≠ '<' ∧ c ≠ '>' := by
    intro c member
    obtain ⟨d, _, spelled⟩ := List.mem_flatMap.mp member
    exact textEscape_delimited d c spelled
  have unended : splitAtWord? [']', ']', '>'] (spelledInText content) = none :=
    splitAtWord?_eq_none (c := '>') (by decide) fun member => (delimited _ member).2 rfl
  rw [← all_isXmlChar_spelledInText]
  cases shape : spelledInText content with
  | nil => exact absurd shape (spelledInText_ne_nil nonempty)
  | cons c others =>
    rw [shape] at delimited unended
    have rest : (documentChars (· != '<')).run (others ++ '<' :: after) = _ :=
      run_documentChars (fun d member => by simp [delimited d (List.mem_cons_of_mem _ member)])
        (by decide) (by decide)
    have open_ : (c != '<') = true := by simp [delimited c (List.mem_cons_self ..)]
    rw [List.cons_append, text, run_bind, run_one, List.all_cons, open_, Bool.and_true]
    cases isXmlChar c with
    | false => rfl
    | true =>
      simp only [if_true, Option.bind_some, Bool.true_and, run_bind, rest]
      split
      · simp [unended]
      · rfl

end Scanner

end CartoStyle.Xml
