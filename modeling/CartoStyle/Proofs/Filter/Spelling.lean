import CartoStyle.Proofs.Decimal.Numeral
import CartoStyle.Proofs.Filter.Lexing

/-!
# Spellings of tokens

A token can be written in more than one way: a literal in either kind of quotes, with more escapes
than it needs, a number with zeros that do not count, an operator by a symbol or by a word in any
case of letters. `Spelling` says which ways there are, and each of them is read as its token
wherever space or nothing stands behind it (`Spelling.scanToken_append`). Whatever is read as a
token has been spelled in one of these ways, or else it is a word (`scanToken_cases`).
-/

namespace CartoStyle.Expression

open Text

/-! ## Escapes -/

/-- The content of a literal and a way to write it between two quotes. A backslash and the quote are
escaped, any other character may be. -/
inductive Escaped (quote : Char) : List Char → List Char → Prop
  | nil : Escaped quote [] []
  | plain {c : Char} {content written : List Char} (other : c ≠ quote) (literal : c ≠ '\\')
      (rest : Escaped quote content written) : Escaped quote (c :: content) (c :: written)
  | escape (c : Char) {content written : List Char} (rest : Escaped quote content written) :
      Escaped quote (c :: content) ('\\' :: c :: written)

theorem Escaped.scanContent?_append {quote : Char} {content written : List Char}
    (escaped : Escaped quote content written) (visible : quote ≠ '\\') (rest : List Char) :
    scanContent? quote (written ++ quote :: rest) = some (content, rest) := by
  induction escaped with
  | nil =>
    rw [List.nil_append, scanContent?]
    · simp
    · intro c others escape
      exact absurd escape visible
  | plain other literal _ ih =>
    rw [List.cons_append, scanContent?_cons other literal, ih]
    rfl
  | escape c _ ih =>
    rw [List.cons_append, List.cons_append, scanContent?, ih]
    rfl

/-- What is read between two quotes was written there, in one way or another. -/
theorem exists_escaped {quote : Char} {text content rest : List Char}
    (found : scanContent? quote text = some (content, rest)) :
    ∃ written, Escaped quote content written ∧ text = written ++ quote :: rest := by
  fun_induction scanContent? quote text generalizing content rest with
  | case1 => cases found
  | case2 c tail ih =>
    obtain ⟨⟨inner, after⟩, inside, same⟩ := Option.map_eq_some_iff.mp found
    cases same
    obtain ⟨written, escaped, rfl⟩ := ih inside
    exact ⟨_, .escape c escaped, rfl⟩
  | case3 c tail _ closes =>
    cases found
    exact ⟨[], .nil, by rw [eq_of_beq closes]; rfl⟩
  | case4 c tail single other ih =>
    obtain ⟨⟨inner, after⟩, inside, same⟩ := Option.map_eq_some_iff.mp found
    cases same
    obtain ⟨written, escaped, rfl⟩ := ih inside
    have literal : c ≠ '\\' := by
      rintro rfl
      cases written with
      | nil => exact single quote _ rfl rfl
      | cons d written => exact single d _ rfl rfl
    exact ⟨_, .plain (by simpa using other) literal escaped, rfl⟩

/-! ## Words -/

/-- The words that are operators, with their tokens. -/
def keywords : List (String × Token) :=
  [("and", .combination .and), ("or", .combination .or), ("not", .negation)]

/-- A word is an operator in some case of its letters. -/
def IsKeyword (word : List Char) (token : Token) : Prop :=
  ∃ entry ∈ keywords, word.map Char.toLower = entry.1.toList ∧ entry.2 = token

/-- The characters that a word begins with where it cannot be taken for a number: letters, the
underscore, and numerals other than the ten digits. -/
def opensWord (c : Char) : Bool := c == '_' || (isAlphanumeric c && !c.isDigit)

section Words

variable {c : Char} {word : List Char}

theorem isWordChar_toLower (letter : isWordChar c) : isWordChar c.toLower := by
  have capital : ∀ c ∈ capitals, isWordChar c.toLower := by decide
  rcases toLower_cases c with same | member
  · rwa [same]
  · exact capital c member

theorem opensWord_of_toLower (opens : opensWord c.toLower) : opensWord c := by
  have capital : ∀ c ∈ capitals, opensWord c := by decide
  rcases toLower_cases c with same | member
  · rwa [same] at opens
  · exact capital c member

theorem isWordChar_of_opensWord (opens : opensWord c) : isWordChar c := by
  simp only [opensWord, Bool.or_eq_true, Bool.and_eq_true, beq_iff_eq] at opens
  rcases opens with rfl | ⟨letter, -⟩
  · decide
  · simp [isWordChar, letter]

theorem not_mem_openers_of_isWordChar (letter : isWordChar c) : c ∉ openers := by
  have others : ∀ d ∈ openers, isWordChar d = false := by decide
  intro opener
  rw [others c opener] at letter
  cases letter

theorem isSpace_of_isWordChar (letter : isWordChar c) : isSpace c = false := by
  apply Bool.eq_false_iff.mpr
  intro space
  simp only [isSpace, Bool.or_eq_true, beq_iff_eq] at space
  rcases space with ((rfl | rfl) | rfl) | rfl <;> exact absurd letter (by decide)

theorem opensNumeral_of_opensWord (opens : opensWord c) : opensNumeral c = false := by
  apply Bool.eq_false_iff.mpr
  intro numeral
  simp only [opensNumeral, continuesMantissa, isSignChar, Bool.or_eq_true, beq_iff_eq] at numeral
  rcases numeral with (digit | rfl) | (rfl | rfl)
  · have underscore : c ≠ '_' := by
      rintro rfl
      cases digit
    simp [opensWord, digit, underscore] at opens
  · exact absurd opens (by decide)
  · exact absurd opens (by decide)
  · exact absurd opens (by decide)

theorem lowercase_ofList (word : List Char) :
    lowercase (String.ofList word) = String.ofList (word.map Char.toLower) := by
  rw [lowercase, String.toList_ofList]

/-- A text with another character than words have is no word. -/
theorem ofList_ne {text : String} (inside : ∀ c ∈ word, isWordChar c)
    (other : text.toList.any (!isWordChar ·)) : String.ofList word ≠ text := by
  rintro rfl
  obtain ⟨c, member, strange⟩ := List.any_eq_true.mp other
  rw [String.toList_ofList] at member
  simp [inside c member] at strange

theorem ofKeyword?_eq_none {α : Type} [Vocabulary α]
    (others : ∀ a : α, (keyword a).toList.any (!isWordChar ·))
    (inside : ∀ c ∈ word, isWordChar c) :
    Vocabulary.ofKeyword? (α := α) (String.ofList word) = none := by
  apply Option.eq_none_iff_forall_ne_some.mpr
  intro a found
  exact ofList_ne inside (others a) (Vocabulary.ofKeyword?_eq_some_iff.mp found).symm

theorem operatorToken?_eq_none (inside : ∀ c ∈ word, isWordChar c)
    (other : ∀ token, ¬ IsKeyword word token) : operatorToken? (String.ofList word) = none := by
  have lowered : ∀ c ∈ word.map Char.toLower, isWordChar c := by
    intro c member
    obtain ⟨d, letter, rfl⟩ := List.mem_map.mp member
    exact isWordChar_toLower (inside d letter)
  have unlike {name : String} {token : Token} (known : (name, token) ∈ keywords) :
      name ≠ lowercase (String.ofList word) := by
    rw [lowercase_ofList]
    rintro rfl
    exact other token ⟨_, known, by rw [String.toList_ofList], rfl⟩
  have same : canonicalSpelling (String.ofList word) = String.ofList word := by
    have unknown : spellings.find? (fun entry => entry.1 == lowercase (String.ofList word)) =
        none := by
      simp only [List.find?_eq_none, beq_iff_eq]
      intro entry member
      simp only [spellings, List.mem_cons, List.not_mem_nil, or_false] at member
      rcases member with rfl | rfl | rfl | rfl | rfl
      · rw [lowercase_ofList]
        exact (ofList_ne lowered (by decide)).symm
      · rw [lowercase_ofList]
        exact (ofList_ne lowered (by decide)).symm
      · exact unlike (List.mem_cons_self ..)
      · exact unlike (List.mem_cons_of_mem _ (List.mem_cons_self ..))
      · exact unlike (List.mem_cons_of_mem _ (List.mem_cons_of_mem _ (List.mem_cons_self ..)))
    rw [canonicalSpelling, unknown]
  have symbols : Vocabulary.ofKeyword? (α := CombinationOperator) (String.ofList word) = none ∧
      Vocabulary.ofKeyword? (α := ComparisonOperator) (String.ofList word) = none :=
    ⟨ofKeyword?_eq_none (by intro a; cases a <;> decide) inside,
      ofKeyword?_eq_none (by intro a; cases a <;> decide) inside⟩
  simp only [operatorToken?, same]
  rw [if_neg (ofList_ne inside (by decide)), if_neg (ofList_ne inside (by decide)),
    if_neg (ofList_ne inside (by decide)), symbols.1, symbols.2]
  rfl

theorem IsKeyword.operatorToken?_eq {token : Token} (known : IsKeyword word token) :
    operatorToken? (String.ofList word) = some token := by
  obtain ⟨entry, known, same, rfl⟩ := known
  have lowered : lowercase (String.ofList word) = entry.1 := by
    rw [lowercase_ofList, same, String.ofList_toList]
  have unlike : ∀ symbol ∈ ["(", ")"], ∀ entry ∈ keywords, lowercase symbol ≠ entry.1 := by
    decide
  have different {symbol : String} (listed : symbol ∈ ["(", ")"]) :
      String.ofList word ≠ symbol := by
    rintro rfl
    exact unlike _ listed entry known lowered
  simp only [operatorToken?, canonicalSpelling, lowered]
  rw [if_neg (different (by decide)), if_neg (different (by decide))]
  simp only [keywords, List.mem_cons, List.not_mem_nil, or_false] at known
  rcases known with rfl | rfl | rfl <;> rfl

/-- An operator that is a word is read as any word is. -/
theorem IsKeyword.opens {token : Token} (known : IsKeyword word token) :
    ∃ first others, word = first :: others ∧ opensWord first ∧ ∀ c ∈ word, isWordChar c := by
  obtain ⟨entry, known, same, -⟩ := known
  have letters : ∀ entry ∈ keywords, ∀ c ∈ entry.1.toList, opensWord c := by decide
  have opens (c : Char) (member : c ∈ word) : opensWord c := by
    apply opensWord_of_toLower
    apply letters entry known
    rw [← same]
    exact List.mem_map_of_mem member
  cases word with
  | nil =>
    have nonempty : ∀ entry ∈ keywords, entry.1.toList ≠ [] := by decide
    exact absurd same.symm (nonempty entry known)
  | cons first others =>
    exact ⟨first, others, rfl, opens first (List.mem_cons_self ..),
      fun c member => isWordChar_of_opensWord (opens c member)⟩

theorem scanToken_of_opensWord {first : Char} {others rest : List Char} (opens : opensWord first)
    (inside : ∀ c ∈ first :: others, isWordChar c) (stop : Stops isWordChar rest) :
    scanToken (first :: others ++ rest) =
      .token ((operatorToken? (String.ofList (first :: others))).getD
        (.word (String.ofList (first :: others)))) rest := by
  refine scanToken_word (not_mem_openers_of_isWordChar (isWordChar_of_opensWord opens)) ?_
    inside stop
  exact scanNumber_of_stops (stops_cons.mpr (opensNumeral_of_opensWord opens))

end Words

/-! ## Spellings -/

/-- The symbols of expressions with the tokens they stand for. -/
def symbolTokens : List (String × Token) := [
  ("==", .comparison .equal), ("=", .comparison .equal), ("!=", .comparison .notEqual),
  ("<>", .comparison .notEqual), ("*=", .comparison .matching), ("<", .comparison .lessThan),
  ("<=", .comparison .lessThanOrEqual), (">", .comparison .greaterThan),
  (">=", .comparison .greaterThanOrEqual), ("%", .comparison .modulo),
  ("&&", .combination .and), ("||", .combination .or), ("!", .negation), ("(", .opening),
  (")", .closing)]

/-- The ways to write a token. -/
inductive Spelling : Token → List Char → Prop
  | property {name : List Char} (nonempty : name ≠ []) (open_ : ']' ∉ name) :
      Spelling (.property (String.ofList name)) ('[' :: (name ++ [']']))
  | text {quote : Char} {content written : List Char} (quoted : isQuote quote)
      (escaped : Escaped quote content written) :
      Spelling (.text (String.ofList content)) (quote :: (written ++ [quote]))
  | number {numeral : List Char} {negative : Bool} {value : Decimal}
      (counts : IsNumeral numeral negative value) :
      Spelling (.number (.ofDecimal negative value)) numeral
  | word {first : Char} {others : List Char} (opens : opensWord first)
      (inside : ∀ c ∈ others, isWordChar c)
      (other : ∀ token, ¬ IsKeyword (first :: others) token) :
      Spelling (.word (String.ofList (first :: others))) (first :: others)
  | keyword {word : List Char} {token : Token} (known : IsKeyword word token) : Spelling token word
  | symbol {entry : String × Token} (known : entry ∈ symbolTokens) :
      Spelling entry.2 entry.1.toList

/-- Space is next, or nothing. -/
def Parted (text : List Char) : Prop := ∀ c ∈ text.head?, isSpace c

section Parts

variable {text rest : List Char} {token : Token}

theorem Parted.stops (parted : Parted rest) : Stops isWordChar rest := by
  intro c next
  apply Bool.eq_false_iff.mpr
  intro letter
  have space := parted c next
  rw [isSpace_of_isWordChar letter] at space
  cases space

/-- Where a literal begins, no property, text or symbol does. -/
theorem scanToken_of_scanNumber (begins : scanNumber text ≠ .absent) :
    scanToken text = scanNumberOrWord text := by
  cases text with
  | nil => exact absurd rfl begins
  | cons c others =>
    apply scanToken_of_not_mem_openers
    have plain : ∀ d ∈ openers, opensNumeral d = false := by decide
    intro opener
    exact begins (scanNumber_of_stops (stops_cons.mpr (plain c opener)))

theorem scanToken_of_isNumeral {negative : Bool} {value : Decimal}
    (numeral : IsNumeral text negative value) (stop : Stops isWordChar rest) :
    scanToken (text ++ rest) = .token (.number (.ofDecimal negative value)) rest := by
  have found := scanNumber_of_isNumeral numeral (stops_continuesNumber stop)
  have next : rest.head?.any isWordChar = false := by
    cases rest with
    | nil => rfl
    | cons c rest => simpa using stop
  rw [scanToken_of_scanNumber (by rw [found]; nofun), scanNumberOrWord, found]
  simp [next]

/-- A bare exponent mark makes a text unreadable. -/
theorem scanToken_of_hasBareMark (marked : HasBareMark text) : scanToken text = .unreadable := by
  have found := scanNumber_eq_dangling_iff.mpr marked
  rw [scanToken_of_scanNumber (by rw [found]; nofun), scanNumberOrWord, found]

theorem scanToken_of_escaped {quote : Char} {content written : List Char} (quoted : isQuote quote)
    (escaped : Escaped quote content written) :
    scanToken (quote :: (written ++ quote :: rest)) =
      .token (.text (String.ofList content)) rest := by
  have quotes : quote = '\'' ∨ quote = '"' := by simpa [isQuote] using quoted
  have visible : quote ≠ '\\' := by
    rcases quotes with rfl | rfl <;> decide
  have property : scanProperty? (quote :: (written ++ quote :: rest)) = none := by
    rcases quotes with rfl | rfl <;> rfl
  rw [scanToken, property, scanText?, if_pos quoted, escaped.scanContent?_append visible]
  rfl

theorem scanToken_of_symbol {entry : String × Token} (known : entry ∈ symbolTokens)
    (parted : Parted rest) : scanToken (entry.1.toList ++ rest) = .token entry.2 rest := by
  have spaces : rest = [] ∨ ∃ c others, rest = c :: others ∧ isSpace c := by
    cases rest with
    | nil => exact .inl rfl
    | cons c others => exact .inr ⟨c, others, rfl, parted c rfl⟩
  rcases spaces with rfl | ⟨c, others, rfl, space⟩
  · revert entry
    decide
  · simp only [isSpace, Bool.or_eq_true, beq_iff_eq] at space
    simp only [symbolTokens, List.mem_cons, List.not_mem_nil, or_false] at known
    rcases known with rfl | rfl | rfl | rfl | rfl | rfl | rfl | rfl | rfl | rfl | rfl | rfl | rfl |
      rfl | rfl <;> rcases space with ((rfl | rfl) | rfl) | rfl <;> rfl

/-- Every spelling of a token is read as the token. -/
theorem Spelling.scanToken_append (spelled : Spelling token text) (parted : Parted rest) :
    scanToken (text ++ rest) = .token token rest := by
  cases spelled with
  | @property name nonempty open_ =>
    have shape : '[' :: (name ++ [']']) ++ rest = '[' :: name ++ ']' :: rest := by simp
    rw [shape, scanToken, scanProperty?_name open_ nonempty]
    rfl
  | @text quote content written quoted escaped =>
    have shape : quote :: (written ++ [quote]) ++ rest = quote :: (written ++ quote :: rest) := by
      simp
    rw [shape]
    exact scanToken_of_escaped quoted escaped
  | number counts => exact scanToken_of_isNumeral counts parted.stops
  | word opens inside other =>
    have letters : ∀ c ∈ _ :: _, isWordChar c :=
      List.forall_mem_cons.mpr ⟨isWordChar_of_opensWord opens, inside⟩
    rw [scanToken_of_opensWord opens letters parted.stops, operatorToken?_eq_none letters other]
    rfl
  | keyword known =>
    obtain ⟨first, others, rfl, opens, letters⟩ := known.opens
    rw [scanToken_of_opensWord opens letters parted.stops, known.operatorToken?_eq]
    rfl
  | symbol known => exact scanToken_of_symbol known parted

/-- A spelling that stands alone is its token. -/
theorem Spelling.scanToken_eq (spelled : Spelling token text) :
    scanToken text = .token token [] := by
  have parted : Parted [] := by simp [Parted]
  have found := spelled.scanToken_append parted
  rwa [List.append_nil] at found

/-- No token begins with space. -/
theorem scanToken_of_isSpace {c : Char} (space : isSpace c) :
    scanToken (c :: rest) = .absent := by
  simp only [isSpace, Bool.or_eq_true, beq_iff_eq] at space
  rcases space with ((rfl | rfl) | rfl) | rfl <;> rfl

end Parts

/-! ## Tokens at the front of a text -/

section Tokens

variable {text rest : List Char} {token : Token}

theorem exists_property (found : scanProperty? text = some (token, rest)) :
    ∃ spelling, Spelling token spelling ∧ text = spelling ++ rest := by
  unfold scanProperty? at found
  split at found
  · rename_i inner
    split at found
    · rename_i c name d after taken dropped
      cases found
      have open_ : ']' ∉ c :: name := by
        rw [← taken]
        intro member
        simpa using List.all_eq_true.mp List.all_takeWhile _ member
      have closing : d = ']' := by
        have stop := stops_dropWhile (p := (· != ']')) inner
        rw [dropped] at stop
        simpa using stop
      refine ⟨_, .property (List.cons_ne_nil _ _) open_, ?_⟩
      have parts := List.takeWhile_append_dropWhile (p := (· != ']')) (l := inner)
      rw [taken, dropped] at parts
      rw [← parts, closing]
      simp
    · cases found
  · cases found

theorem exists_text (found : scanText? text = some (token, rest)) :
    ∃ spelling, Spelling token spelling ∧ text = spelling ++ rest := by
  unfold scanText? at found
  split at found
  · split at found
    · rename_i quote inner quoted
      obtain ⟨⟨content, after⟩, inside, same⟩ := Option.map_eq_some_iff.mp found
      cases same
      obtain ⟨written, escaped, rfl⟩ := exists_escaped inside
      exact ⟨_, .text quoted escaped, by simp⟩
    · cases found
  · cases found

theorem exists_symbol {list : List String} (known : ∀ symbol ∈ list, symbol ∈ symbols)
    (found : scanSymbolOf? list text = some (token, rest)) :
    ∃ spelling, Spelling token spelling ∧ text = spelling ++ rest := by
  induction list with
  | nil => cases found
  | cons symbol others ih =>
    unfold scanSymbolOf? at found
    split at found
    · rename_i begins
      obtain ⟨token', meaning, same⟩ := Option.map_eq_some_iff.mp found
      cases same
      have listed : ∀ symbol ∈ symbols, ∀ token ∈ operatorToken? symbol,
          (symbol, token) ∈ symbolTokens := by decide
      have entry := listed symbol (known symbol (List.mem_cons_self ..)) token meaning
      have parts := List.prefix_iff_eq_append.mp (List.isPrefixOf_iff_prefix.mp begins)
      exact ⟨_, .symbol entry, parts.symm⟩
    · exact ih (fun symbol member => known symbol (List.mem_cons_of_mem _ member)) found

/-- A token has a spelling of its own at the front of the text, or it is the word there, where no
number ends. -/
theorem scanToken_cases (found : scanToken text = .token token rest) :
    (∃ spelling, Spelling token spelling ∧ text = spelling ++ rest) ∨
    scanWord text = .token token rest ∧
      ∀ negative value after, scanNumber text = .number negative value after →
        after.head?.any isWordChar := by
  unfold scanToken at found
  split at found
  · rename_i known
    cases found
    simp only [Option.or_eq_some_iff] at known
    rcases known with (property | ⟨-, content⟩) | ⟨-, symbol⟩
    · exact .inl (exists_property property)
    · exact .inl (exists_text content)
    · exact .inl (exists_symbol (fun _ member => member) symbol)
  · unfold scanNumberOrWord at found
    split at found
    · rename_i absent
      refine .inr ⟨found, fun negative value after number => ?_⟩
      rw [absent] at number
      cases number
    · cases found
    · rename_i number
      split at found
      · rename_i more
        refine .inr ⟨found, fun negative value after number' => ?_⟩
        rw [number] at number'
        cases number'
        exact more
      · cases found
        obtain ⟨numeral, counts, shape⟩ := exists_isNumeral number
        exact .inl ⟨numeral, .number counts, shape⟩

end Tokens

end CartoStyle.Expression
