import CartoStyle.Json.Draft
import CartoStyle.Json.Render
import CartoStyle.Proofs.Json.Number
import CartoStyle.Proofs.Json.Text

/-!
# Written documents

The text of a value is cut into the tokens of the value, in one line as well as with one item to a
line (`Value.tokens_chars`), and these tokens are read as the draft of the value
(`Value.read_tokens`). So every written document is read to its end, and nothing follows it
(`Document.ofText_chars`). A number without digits is written `null` and read as such.
-/

namespace CartoStyle.Json

open Text (Stops stops_nil stops_cons)

namespace Value

/-! ## The parts of a value -/

mutual

/-- The tokens of a value. -/
def tokens : Value → List Token
  | .null => [.null]
  | .bool value => [.bool value]
  | .number spelled => [spelled.literal?.elim .null .number]
  | .string text => [.string (pieces text)]
  | .array items => .openArray :: itemTokens items
  | .object members => .openObject :: memberTokens members

/-- The tokens of the items of an array, and of its end. -/
def itemTokens : List Value → List Token
  | [] => [.closeArray]
  | [item] => tokens item ++ [.closeArray]
  | item :: others => tokens item ++ .comma :: itemTokens others

/-- The tokens of the members of an object, and of its end. -/
def memberTokens : List (String × Value) → List Token
  | [] => [.closeObject]
  | [(name, value)] => .string (pieces name) :: .colon :: tokens value ++ [.closeObject]
  | (name, value) :: others =>
    .string (pieces name) :: .colon :: tokens value ++ .comma :: memberTokens others

end

mutual

/-- The draft of a value. -/
def draft : Value → Draft
  | .null => .null
  | .bool value => .bool value
  | .number spelled => spelled.literal?.elim .null .number
  | .string text => .string (pieces text)
  | .array items => .array (itemDrafts items)
  | .object members => .object (memberDrafts members)

def itemDrafts : List Value → Items
  | [] => .closed
  | item :: others => .item (draft item) (itemDrafts others)

def memberDrafts : List (String × Value) → Members
  | [] => .closed
  | (name, value) :: others => .member (pieces name) (draft value) (memberDrafts others)

end

end Value

/-! ## From the text to the tokens -/

section Tokens

variable {rest : List Char}

theorem tokens_cons {c : Char} (visible : Text.isSpace c = false) (rest : List Char) :
    tokens (c :: rest) = (nextToken c rest).1 :: tokens (nextToken c rest).2 := by
  rw [tokens, if_neg (by simp [visible])]

theorem tokens_space {c : Char} (space : Text.isSpace c) (rest : List Char) :
    tokens (c :: rest) = tokens rest := by
  rw [tokens, if_pos space]

theorem tokens_lineBreak (level : Option Nat) (rest : List Char) :
    tokens (lineBreak level ++ rest) = tokens rest := by
  have spaces (count : Nat) : tokens (List.replicate count ' ' ++ rest) = tokens rest := by
    induction count with
    | zero => rfl
    | succ count ih => rw [List.replicate_succ, List.cons_append, tokens_space (by decide), ih]
  cases level with
  | none => rfl
  | some level => rw [lineBreak, List.cons_append, tokens_space (by decide), spaces]

theorem tokens_literalOf (text : String) (rest : List Char) :
    tokens (literalOf text.toList ++ rest) = .string (pieces text) :: tokens rest := by
  have cut := cutLiteral_flatMap text.toList rest
  rw [literalOf, List.cons_append, List.cons_append, List.append_assoc, List.singleton_append,
    tokens_cons (by decide), nextToken, stringToken, cut]
  rfl

theorem tokens_afterName (level : Option Nat) (rest : List Char) :
    tokens (afterName level ++ rest) = .colon :: tokens rest := by
  cases level with
  | none => exact tokens_cons (by decide) rest
  | some level =>
    refine (tokens_cons (by decide) (' ' :: rest)).trans ?_
    rw [nextToken, tokens_space (by decide)]

theorem nextToken_of_number {c : Char} (number : c = '-' ∨ c.isDigit) (rest : List Char) :
    nextToken c rest = numberToken (c :: rest) := by
  unfold nextToken
  split
  all_goals simp_all

theorem isSpace_of_number {c : Char} (number : c = '-' ∨ c.isDigit) : Text.isSpace c = false := by
  by_contra space
  rw [Bool.not_eq_false, Text.isSpace] at space
  simp only [Bool.or_eq_true, beq_iff_eq] at space
  rcases space with ((rfl | rfl) | rfl) | rfl <;> revert number <;> decide

/-- A literal begins with a minus or a digit. -/
theorem number_of_scanLiteral {text after : List Char} {literal : Literal}
    (scanned : scanLiteral text = .literal literal after) :
    ∃ c others, text = c :: others ∧ (c = '-' ∨ c.isDigit) := by
  cases text with
  | nil => cases scanned
  | cons c others =>
    refine ⟨c, others, rfl, or_iff_not_imp_left.mpr fun unsigned => ?_⟩
    by_contra other
    have digits : (c :: others).takeWhile Char.isDigit = [] := by simp [other]
    have positive : takeMinus (c :: others) = (false, c :: others) := by
      unfold takeMinus
      split <;> simp_all
    simp only [scanLiteral, positive, digits] at scanned
    cases scanned

theorem tokens_literal {text : List Char} {literal : Literal}
    (scanned : scanLiteral text = .literal literal []) (stop : Stops continuesNumber rest) :
    tokens (text ++ rest) = .number literal :: tokens rest := by
  have whole := scanLiteral_append stop scanned
  obtain ⟨c, others, shape, first⟩ := number_of_scanLiteral scanned
  rw [shape, List.cons_append] at whole ⊢
  rw [tokens_cons (isSpace_of_number first), nextToken_of_number first, numberToken, whole]
  rfl

/-- A number is its literal, or `null` where it has none. -/
theorem tokens_numberChars (number : Number) (stop : Stops continuesNumber rest) :
    tokens (number.chars ++ rest) = number.literal?.elim .null .number :: tokens rest := by
  rcases number.literal?_cases with ⟨literal, spelled⟩ | ⟨spelled, absent⟩
  · rw [spelled, Option.elim_some]
    exact tokens_literal (Number.literal?_eq_some_iff.mp spelled) stop
  · rw [spelled, absent, Option.elim_none]
    exact tokens_cons (by decide) _

end Tokens

/-! ## Values -/

namespace Value

theorem stops_close (level : Option Nat) {c : Char} (close : continuesNumber c = false)
    (rest : List Char) : Stops continuesNumber (lineBreak level ++ c :: rest) := by
  cases level with
  | none => exact stops_cons.mpr close
  | some level => exact stops_cons.mpr (by decide)

theorem tokens_arrayChars (level : Option Nat) (items : List Value) (rest : List Char) :
    Json.tokens (chars level (.array items) ++ rest) =
      .openArray ::
        Json.tokens (itemChars (deeper level) items ++ lineBreak level ++ ']' :: rest) := by
  cases items with
  | nil =>
    rw [itemChars, List.nil_append, tokens_lineBreak]
    exact tokens_cons (by decide) (']' :: rest)
  | cons item others =>
    rw [chars, List.append_assoc, List.append_assoc, List.singleton_append, List.cons_append,
      tokens_cons (by decide), nextToken, List.append_assoc]
    nofun

theorem tokens_objectChars (level : Option Nat) (members : List (String × Value))
    (rest : List Char) :
    Json.tokens (chars level (.object members) ++ rest) =
      .openObject ::
        Json.tokens (memberChars (deeper level) members ++ lineBreak level ++ '\x7d' :: rest) := by
  cases members with
  | nil =>
    rw [memberChars, List.nil_append, tokens_lineBreak]
    exact tokens_cons (by decide) ('\x7d' :: rest)
  | cons member others =>
    rw [chars, List.append_assoc, List.append_assoc, List.singleton_append, List.cons_append,
      tokens_cons (by decide), nextToken, List.append_assoc]
    nofun

theorem stops_comma (rest : List Char) : Stops continuesNumber (',' :: rest) :=
  stops_cons.mpr (by decide)

theorem tokens_comma (rest : List Char) : Json.tokens (',' :: rest) = .comma :: Json.tokens rest :=
  tokens_cons (by decide) rest

theorem tokens_closeArray (rest : List Char) :
    Json.tokens (']' :: rest) = .closeArray :: Json.tokens rest := tokens_cons (by decide) rest

theorem tokens_closeObject (rest : List Char) :
    Json.tokens ('\x7d' :: rest) = .closeObject :: Json.tokens rest := tokens_cons (by decide) rest

mutual

/-- The text of a value is cut into its tokens. -/
theorem tokens_chars (level : Option Nat) (value : Value) {rest : List Char}
    (stop : Stops continuesNumber rest) :
    Json.tokens (value.chars level ++ rest) = value.tokens ++ Json.tokens rest := by
  match value with
  | .null => exact tokens_cons (by decide) _
  | .bool true => exact tokens_cons (by decide) _
  | .bool false => exact tokens_cons (by decide) _
  | .number spelling =>
    rw [chars, tokens]
    exact tokens_numberChars spelling stop
  | .string text =>
    rw [chars, tokens]
    exact tokens_literalOf text rest
  | .array items => rw [tokens_arrayChars, tokens_itemChars _ _ items, tokens, List.cons_append]
  | .object members =>
    rw [tokens_objectChars, tokens_memberChars _ _ members, tokens, List.cons_append]

theorem tokens_itemChars (level outer : Option Nat) (items : List Value) (rest : List Char) :
    Json.tokens (itemChars level items ++ lineBreak outer ++ ']' :: rest) =
      itemTokens items ++ Json.tokens rest := by
  match items with
  | [] =>
    rw [itemChars, List.nil_append, tokens_lineBreak]
    exact tokens_closeArray rest
  | [item] =>
    have stop : Stops continuesNumber (lineBreak outer ++ ']' :: rest) :=
      stops_close outer (by decide) rest
    simp only [itemChars, List.append_assoc, tokens_lineBreak, tokens_chars level item stop,
      tokens_closeArray, itemTokens, List.singleton_append]
  | item :: next :: others =>
    have inner := tokens_itemChars level outer (next :: others) rest
    rw [List.append_assoc] at inner
    simp only [itemChars, List.append_assoc, List.cons_append, tokens_lineBreak,
      tokens_chars level item (stops_comma _), tokens_comma, inner, itemTokens]

theorem tokens_memberChars (level outer : Option Nat) (members : List (String × Value))
    (rest : List Char) :
    Json.tokens (memberChars level members ++ lineBreak outer ++ '\x7d' :: rest) =
      memberTokens members ++ Json.tokens rest := by
  match members with
  | [] =>
    rw [memberChars, List.nil_append, tokens_lineBreak]
    exact tokens_closeObject rest
  | [(name, value)] =>
    have stop : Stops continuesNumber (lineBreak outer ++ '\x7d' :: rest) :=
      stops_close outer (by decide) rest
    simp only [memberChars, List.append_assoc, List.cons_append, tokens_lineBreak, tokens_literalOf,
      tokens_afterName, tokens_chars level value stop, tokens_closeObject, memberTokens,
      List.nil_append]
  | (name, value) :: next :: others =>
    have inner := tokens_memberChars level outer (next :: others) rest
    rw [List.append_assoc] at inner
    simp only [memberChars, List.append_assoc, List.cons_append, tokens_lineBreak, tokens_literalOf,
      tokens_afterName, tokens_chars level value (stops_comma _), tokens_comma, inner,
      memberTokens]

end

end Value

/-! ## From the tokens to the draft -/

section Reading

/-- What has been read from some tokens, and what follows it. -/
def Front.Is {α : Type} {tokens : List Token} (front : Front α tokens) (value : α)
    (rest : List Token) : Prop :=
  front.1 = value ∧ front.2.1 = rest

theorem Draft.read_array {first : Token} {others rest : List Token} {items : Items}
    (open_ : first ≠ .closeArray) (inner : (Items.read (first :: others)).Is items rest) :
    (Draft.read (.openArray :: first :: others)).Is (.array items) rest := by
  obtain ⟨rfl, rfl⟩ := inner
  rw [Draft.read]
  · exact ⟨rfl, rfl⟩
  · rintro _ ⟨⟩
    exact open_ rfl
  · simp

theorem Draft.read_object {first : Token} {others rest : List Token} {members : Members}
    (open_ : first ≠ .closeObject) (inner : (Members.read (first :: others)).Is members rest) :
    (Draft.read (.openObject :: first :: others)).Is (.object members) rest := by
  obtain ⟨rfl, rfl⟩ := inner
  rw [Draft.read]
  · exact ⟨rfl, rfl⟩
  · rintro _ ⟨⟩
    exact open_ rfl

theorem Items.read_last {tokens rest : List Token} {item : Draft}
    (inner : (Draft.read tokens).Is item (.closeArray :: rest)) :
    (Items.read tokens).Is (.item item .closed) rest := by
  rw [Items.read]
  revert inner
  generalize Draft.read tokens = front
  rintro ⟨rfl, next⟩
  obtain ⟨item, after, shorter⟩ := front
  cases next
  exact ⟨rfl, rfl⟩

theorem Items.read_comma {tokens rest after : List Token} {first : Token} {item : Draft}
    {items : Items}
    (open_ : first ≠ .closeArray)
    (here : (Draft.read tokens).Is item (.comma :: first :: rest))
    (there : (Items.read (first :: rest)).Is items after) :
    (Items.read tokens).Is (.item item items) after := by
  rw [Items.read]
  revert here
  generalize Draft.read tokens = front
  rintro ⟨rfl, next⟩
  obtain ⟨item, after, shorter⟩ := front
  cases next
  obtain ⟨rfl, rfl⟩ := there
  cases first with
  | closeArray => exact absurd rfl open_
  | _ => exact ⟨rfl, rfl⟩

theorem Members.read_last {name : List Piece} {tokens rest : List Token} {value : Draft}
    (inner : (Draft.read tokens).Is value (.closeObject :: rest)) :
    (Members.read (.string name :: .colon :: tokens)).Is (.member name value .closed) rest := by
  rw [Members.read]
  revert inner
  generalize Draft.read tokens = front
  rintro ⟨rfl, next⟩
  obtain ⟨item, after, shorter⟩ := front
  cases next
  exact ⟨rfl, rfl⟩

theorem Members.read_comma {name : List Piece} {tokens rest after : List Token} {value : Draft}
    {members : Members}
    (here : (Draft.read tokens).Is value (.comma :: rest))
    (there : (Members.read rest).Is members after) :
    (Members.read (.string name :: .colon :: tokens)).Is (.member name value members) after := by
  rw [Members.read]
  revert here
  generalize Draft.read tokens = front
  rintro ⟨rfl, next⟩
  obtain ⟨item, after, shorter⟩ := front
  cases next
  obtain ⟨rfl, rfl⟩ := there
  exact ⟨rfl, rfl⟩

end Reading

namespace Value

theorem tokens_eq_cons (value : Value) :
    ∃ first others, value.tokens = first :: others ∧ first ≠ .closeArray := by
  cases value with
  | number spelling =>
    rw [tokens]
    refine ⟨_, _, rfl, ?_⟩
    cases spelling.literal? <;> nofun
  | _ =>
    rw [tokens]
    exact ⟨_, _, rfl, nofun⟩

theorem itemTokens_eq_cons {items : List Value} (nonempty : items ≠ []) :
    ∃ first after, itemTokens items = first :: after ∧ first ≠ .closeArray := by
  match items with
  | [] => exact absurd rfl nonempty
  | [item] =>
    obtain ⟨first, after, shape, open_⟩ := tokens_eq_cons item
    exact ⟨first, after ++ [.closeArray], by rw [itemTokens, shape, List.cons_append], open_⟩
  | item :: next :: others =>
    obtain ⟨first, after, shape, open_⟩ := tokens_eq_cons item
    refine ⟨first, after ++ .comma :: itemTokens (next :: others), ?_, open_⟩
    simp only [itemTokens, shape, List.cons_append]

theorem memberTokens_eq_cons {members : List (String × Value)} (nonempty : members ≠ []) :
    ∃ name after, memberTokens members = .string name :: after := by
  match members with
  | [] => exact absurd rfl nonempty
  | [(name, value)] => exact ⟨_, _, rfl⟩
  | (name, value) :: next :: others => exact ⟨_, _, rfl⟩

mutual

/-- The tokens of a value are read as its draft, whatever follows them. -/
theorem read_tokens (value : Value) (rest : List Token) :
    (Draft.read (value.tokens ++ rest)).Is value.draft rest := by
  match value with
  | .null | .bool _ | .string _ =>
    rw [tokens, draft, List.singleton_append, Draft.read]
    exact ⟨rfl, rfl⟩
  | .number spelling =>
    rw [tokens, draft, List.singleton_append]
    cases spelling.literal? with
    | none => rw [Option.elim_none, Option.elim_none, Draft.read]; exact ⟨rfl, rfl⟩
    | some literal => rw [Option.elim_some, Option.elim_some, Draft.read]; exact ⟨rfl, rfl⟩
  | .array items =>
    by_cases empty : items = []
    · rw [empty, tokens, itemTokens, draft, itemDrafts, List.cons_append, List.singleton_append,
        Draft.read]
      exact ⟨rfl, rfl⟩
    · obtain ⟨first, after, shape, open_⟩ := itemTokens_eq_cons empty
      have inner := read_itemTokens items empty rest
      rw [shape, List.cons_append] at inner
      rw [tokens, draft, List.cons_append, shape, List.cons_append]
      exact Draft.read_array open_ inner
  | .object members =>
    by_cases empty : members = []
    · rw [empty, tokens, memberTokens, draft, memberDrafts, List.cons_append, List.singleton_append,
        Draft.read]
      exact ⟨rfl, rfl⟩
    · obtain ⟨name, after, shape⟩ := memberTokens_eq_cons empty
      have inner := read_memberTokens members empty rest
      rw [shape, List.cons_append] at inner
      rw [tokens, draft, List.cons_append, shape, List.cons_append]
      exact Draft.read_object nofun inner

theorem read_itemTokens (items : List Value) (nonempty : items ≠ []) (rest : List Token) :
    (Items.read (itemTokens items ++ rest)).Is (itemDrafts items) rest := by
  match items with
  | [] => exact absurd rfl nonempty
  | [item] =>
    rw [itemTokens, List.append_assoc]
    exact Items.read_last (read_tokens item _)
  | item :: next :: others =>
    have nonempty : next :: others ≠ [] := List.cons_ne_nil _ _
    obtain ⟨first, after, shape, open_⟩ := itemTokens_eq_cons nonempty
    have here := read_tokens item (.comma :: (itemTokens (next :: others) ++ rest))
    have there := read_itemTokens (next :: others) nonempty rest
    rw [shape, List.cons_append] at here there
    rw [itemTokens, List.append_assoc, List.cons_append, shape]
    · exact Items.read_comma open_ here there
    · exact nonempty

theorem read_memberTokens (members : List (String × Value)) (nonempty : members ≠ [])
    (rest : List Token) :
    (Members.read (memberTokens members ++ rest)).Is (memberDrafts members) rest := by
  match members with
  | [] => exact absurd rfl nonempty
  | [(name, value)] =>
    rw [memberTokens, List.append_assoc]
    exact Members.read_last (read_tokens value _)
  | (name, value) :: next :: others =>
    have nonempty : next :: others ≠ [] := List.cons_ne_nil _ _
    have here := read_tokens value (.comma :: (memberTokens (next :: others) ++ rest))
    have there := read_memberTokens (next :: others) nonempty rest
    rw [memberTokens, List.append_assoc]
    · exact Members.read_comma here there
    · exact nonempty

end

end Value

theorem Document.ofText_of_is {text : String} {draft : Draft} {rest : List Token}
    (read : (Draft.read (tokens text.toList)).Is draft rest) :
    Document.ofText text = ⟨draft, !rest.isEmpty⟩ := by
  rw [Document.ofText]
  obtain ⟨rfl, rfl⟩ := read
  rfl

/-- A written document is read as the draft of its value, and nothing follows it. -/
theorem Document.ofText_chars (level : Option Nat) (value : Value) :
    Document.ofText (String.ofList (value.chars level)) = ⟨value.draft, false⟩ := by
  have cut := value.tokens_chars level stops_nil
  rw [List.append_nil] at cut
  have read : (Draft.read (tokens (String.ofList (value.chars level)).toList)).Is
      value.draft [] := by
    rw [String.toList_ofList, cut, tokens]
    exact value.read_tokens []
  exact Document.ofText_of_is read

end CartoStyle.Json
