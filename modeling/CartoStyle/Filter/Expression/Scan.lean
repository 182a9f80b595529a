import CartoStyle.Decimal.Literal
import CartoStyle.Filter.Expression.Problem
import CartoStyle.Text.Alphanumeric
import CartoStyle.Text.Basic

/-!
# From text to tokens

`scan` cuts an expression into tokens. At each place the kinds are tried in a fixed order: a
property, a literal in quotes, a symbol (the longest first), a number, a word. A number is one only
if no word goes on behind it, so `1st` is a word. Spaces, tabs and line ends separate tokens and are
skipped.

Every token takes at least one character (`scanToken_shortens`), which is why the scan ends.
-/

namespace CartoStyle.Expression

/-- The characters of words. -/
def isWordChar (c : Char) : Bool :=
  Text.isAlphanumeric c || c == '_' || c == '.' || c == '-' || c == ':'

/-- What the front of a text is, read as a token. -/
inductive TokenScan where
  /-- No token begins here. -/
  | absent
  /-- A number whose exponent mark has no digits. -/
  | unreadable
  | token (token : Token) (rest : List Char)
deriving DecidableEq

/-- The symbols of expressions, each before those that it starts with. -/
def symbols : List String :=
  ["==", "!=", "*=", "<=", ">=", "<>", "&&", "||", "<", ">", "=", "%", "!", "(", ")"]

/-- The token that a symbol, or a word used as one, stands for. -/
def operatorToken? (spelling : String) : Option Token :=
  if spelling = "(" then some .opening
  else if spelling = ")" then some .closing
  else
    let symbol := canonicalSpelling spelling
    if symbol = negationSymbol then some .negation
    else match Vocabulary.ofKeyword? (α := CombinationOperator) symbol with
      | some operator => some (.combination operator)
      | none => (Vocabulary.ofKeyword? symbol).map .comparison

/-- A property: a name of at least one character between brackets. -/
def scanProperty? : List Char → Option (Token × List Char)
  | '[' :: text =>
    match text.takeWhile (· != ']'), text.dropWhile (· != ']') with
    | name@(_ :: _), _ :: rest => some (.property (String.ofList name), rest)
    | _, _ => none
  | _ => none

/-- The content of a literal up to its closing quote. A backslash stands for the character after it.
-/
def scanContent? (quote : Char) : List Char → Option (List Char × List Char)
  | [] => none
  | '\\' :: c :: rest => (scanContent? quote rest).map fun (content, after) => (c :: content, after)
  | c :: rest =>
    if c == quote then some ([], rest)
    else (scanContent? quote rest).map fun (content, after) => (c :: content, after)

/-- A quote opens a literal. -/
def isQuote (c : Char) : Bool := c == '\'' || c == '"'

/-- A literal in single or double quotes. -/
def scanText? : List Char → Option (Token × List Char)
  | c :: text =>
    if isQuote c then
      (scanContent? c text).map fun (content, rest) => (.text (String.ofList content), rest)
    else none
  | [] => none

/-- The first of some symbols that a text begins with. -/
def scanSymbolOf? : List String → List Char → Option (Token × List Char)
  | [], _ => none
  | symbol :: others, text =>
    if symbol.toList.isPrefixOf text then
      (operatorToken? symbol).map fun token => (token, text.drop symbol.toList.length)
    else scanSymbolOf? others text

/-- A word, which may be an operator. -/
def scanWord (text : List Char) : TokenScan :=
  let word := String.ofList (text.takeWhile isWordChar)
  if word = "" then .absent
  else .token ((operatorToken? word).getD (.word word)) (text.dropWhile isWordChar)

/-- A number that no word goes on behind, else a word. -/
def scanNumberOrWord (text : List Char) : TokenScan :=
  match scanNumber text with
  | .absent => scanWord text
  | .dangling => .unreadable
  | .number negative value rest =>
    if rest.head?.any isWordChar then scanWord text
    else .token (.number (.ofDecimal negative value)) rest

/-- The token at the front of a text. -/
def scanToken (text : List Char) : TokenScan :=
  match ((scanProperty? text).or (scanText? text)).or (scanSymbolOf? symbols text) with
  | some (token, rest) => .token token rest
  | none => scanNumberOrWord text

/-! ## Every token takes a character -/

private theorem scanProperty?_shortens {text rest : List Char} {token : Token}
    (found : scanProperty? text = some (token, rest)) : rest.length < text.length := by
  unfold scanProperty? at found
  split at found
  · rename_i inner
    have bound := (List.dropWhile_suffix (l := inner) (· != ']')).length_le
    split at found
    · rename_i after
      rw [after] at bound
      cases found
      simp only [List.length_cons] at bound ⊢
      omega
    · simp at found
  · simp at found

private theorem scanContent?_shortens {quote : Char} {text content rest : List Char}
    (found : scanContent? quote text = some (content, rest)) : rest.length < text.length := by
  fun_induction scanContent? quote text generalizing content rest with
  | case1 => simp at found
  | case2 c tail ih =>
    obtain ⟨⟨inner, after⟩, inside, same⟩ := Option.map_eq_some_iff.mp found
    cases same
    have := ih inside
    simp only [List.length_cons]
    omega
  | case3 c tail _ _ =>
    cases found
    simp
  | case4 c tail _ _ ih =>
    obtain ⟨⟨inner, after⟩, inside, same⟩ := Option.map_eq_some_iff.mp found
    cases same
    have := ih inside
    simp only [List.length_cons]
    omega

private theorem scanText?_shortens {text rest : List Char} {token : Token}
    (found : scanText? text = some (token, rest)) : rest.length < text.length := by
  unfold scanText? at found
  split at found
  · split at found
    · obtain ⟨⟨content, after⟩, inside, same⟩ := Option.map_eq_some_iff.mp found
      cases same
      have := scanContent?_shortens inside
      simp only [List.length_cons]
      omega
    · simp at found
  · simp at found

private theorem scanSymbolOf?_shortens {list : List String} {text rest : List Char} {token : Token}
    (nonempty : ∀ symbol ∈ list, symbol.toList ≠ [])
    (found : scanSymbolOf? list text = some (token, rest)) : rest.length < text.length := by
  induction list with
  | nil => simp [scanSymbolOf?] at found
  | cons symbol others ih =>
    unfold scanSymbolOf? at found
    split at found
    · rename_i begins
      obtain ⟨_, _, same⟩ := Option.map_eq_some_iff.mp found
      cases same
      have fits := (List.isPrefixOf_iff_prefix.mp begins).length_le
      have := List.length_pos_iff.mpr (nonempty symbol (by simp))
      simp only [List.length_drop]
      omega
    · exact ih (fun other member => nonempty other (by simp [member])) found

private theorem scanWord_shortens {text rest : List Char} {token : Token}
    (found : scanWord text = .token token rest) : rest.length < text.length := by
  simp only [scanWord] at found
  split at found
  · simp at found
  · rename_i nonempty
    cases found
    have parts := congrArg List.length
      (List.takeWhile_append_dropWhile (p := isWordChar) (l := text))
    have word : text.takeWhile isWordChar ≠ [] := fun empty => nonempty (by rw [empty])
    have := List.length_pos_iff.mpr word
    simp only [List.length_append] at parts
    omega

private theorem scanNumberOrWord_shortens {text rest : List Char} {token : Token}
    (found : scanNumberOrWord text = .token token rest) : rest.length < text.length := by
  unfold scanNumberOrWord at found
  split at found
  · exact scanWord_shortens found
  · simp at found
  · rename_i number
    split at found
    · exact scanWord_shortens found
    · cases found
      exact scanNumber_shortens number

theorem scanToken_shortens {text rest : List Char} {token : Token}
    (found : scanToken text = .token token rest) : rest.length < text.length := by
  unfold scanToken at found
  split at found
  · rename_i known
    cases found
    simp only [Option.or_eq_some_iff] at known
    rcases known with (property | ⟨_, content⟩) | ⟨_, symbol⟩
    · exact scanProperty?_shortens property
    · exact scanText?_shortens content
    · exact scanSymbolOf?_shortens (by decide) symbol
  · exact scanNumberOrWord_shortens found

/-! ## The tokens of an expression -/

/-- Why no token begins where a text goes on. -/
def obstacle : List Char → Option Malformation
  | [] => none
  | c :: _ => some (if isQuote c then .unterminatedText else .unexpectedCharacter c)

/-- The tokens of the last part of an expression that takes `size` bytes. -/
def scanFrom (size : Nat) (text : List Char) : Except Problem (List Placed) :=
  let position := size - Text.byteLength (Text.skipSpace text)
  match _ : scanToken (Text.skipSpace text) with
  | .absent =>
    match obstacle (Text.skipSpace text) with
    | none => .ok []
    | some cause => .error (.malformed position cause)
  | .unreadable => .error (.malformed 0 .unreadable)
  | .token token rest =>
    match scanFrom size rest with
    | .ok others => .ok (⟨token, position⟩ :: others)
    | .error problem => .error problem
termination_by text.length
decreasing_by
  have := scanToken_shortens ‹_›
  have := Text.length_skipSpace_le text
  omega

/-- The tokens of an expression. -/
def scan (text : List Char) : Except Problem (List Placed) := scanFrom (Text.byteLength text) text

end CartoStyle.Expression
