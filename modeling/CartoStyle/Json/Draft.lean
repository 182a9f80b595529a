import CartoStyle.Json.Literal
import CartoStyle.Text.Basic

/-!
# Drafts

A document that cannot be read to its end is still read in part: whoever wants something else than
what stands at the front of it learns of that first. A `Draft` is a document as far as it could be
read. Where reading stopped there is a fault in the place of the rest, so the leftmost problem of a
document is the first one that a reader of its draft meets.

String and number literals stay as they were spelled. A member that nobody asks for is skipped, and
skipping is more lenient than reading.
-/

namespace CartoStyle.Json

/-! ## Tokens -/

/-- The smallest parts of a document. -/
inductive Token where
  | null
  | bool (value : Bool)
  | number (literal : Literal)
  | string (pieces : List Piece)
  /-- A literal that breaks off: the fault of reading it, and that of skipping it. -/
  | broken (read skipped : Fault)
  /-- A string literal that breaks off. -/
  | brokenString (read skipped : Fault)
  | openArray
  | closeArray
  | openObject
  | closeObject
  | comma
  | colon

/-- A word at the front of a text: what follows it, or the fault where the text departs from it. -/
def expectWord : List Char → List Char → Except Fault (List Char)
  | [], text => .ok text
  | _ :: _, [] => .error .incomplete
  | w :: word, c :: text => if c == w then expectWord word text else .error .malformed

/-- A token that is a word. -/
def wordToken (token : Token) (word : String) (text : List Char) : Token × List Char :=
  match expectWord word.toList text with
  | .ok rest => (token, rest)
  | .error fault => (.broken fault fault, [])

/-- A string literal after its opening quote. -/
def stringToken (text : List Char) : Token × List Char :=
  match cutLiteral text with
  | (pieces, .ok rest) => (.string pieces, rest)
  | (pieces, .error fault) =>
    (.brokenString (if (joinPieces? true pieces).isSome then fault else .malformed) fault, [])

/-- A number literal. -/
def numberToken (text : List Char) : Token × List Char :=
  match scanLiteral text with
  | .literal literal rest => (.number literal, rest)
  | .broken read skipped => (.broken read skipped, [])

/-- The token that begins with a character, and what follows it. After a broken token nothing
follows. -/
def nextToken (c : Char) (rest : List Char) : Token × List Char :=
  match c with
  | '[' => (.openArray, rest)
  | ']' => (.closeArray, rest)
  | '\x7b' => (.openObject, rest)
  | '\x7d' => (.closeObject, rest)
  | ',' => (.comma, rest)
  | ':' => (.colon, rest)
  | '"' => stringToken rest
  | 'n' => wordToken .null "ull" rest
  | 't' => wordToken (.bool true) "rue" rest
  | 'f' => wordToken (.bool false) "alse" rest
  | c =>
    if c == '-' || c.isDigit then numberToken (c :: rest)
    else (.broken .malformed .malformed, [])

theorem length_expectWord_le {word text rest : List Char}
    (found : expectWord word text = .ok rest) : rest.length ≤ text.length := by
  fun_induction expectWord word text with
  | case1 => cases found; simp
  | case2 => cases found
  | case3 w word c text same ih => exact Nat.le_succ_of_le (ih found)
  | case4 => cases found

theorem length_cutLiteral_le {text rest : List Char} {pieces : List Piece}
    (found : cutLiteral text = (pieces, .ok rest)) : rest.length ≤ text.length := by
  fun_induction cutLiteral text generalizing pieces with
  | case2 => cases found; simp
  | case3 => cases found; rename_i ih cut; have := ih cut; simp only [List.length_cons]; omega
  | case6 => cases found; rename_i ih cut; have := ih cut; simp only [List.length_cons]; omega
  | case10 => cases found; rename_i ih cut; have := ih cut; simp only [List.length_cons]; omega
  | _ => cases found

theorem length_nextToken_le (c : Char) (rest : List Char) :
    (nextToken c rest).2.length ≤ rest.length := by
  have word (token : Token) (w : String) : (wordToken token w rest).2.length ≤ rest.length := by
    unfold wordToken
    split
    · exact length_expectWord_le ‹_›
    · simp
  unfold nextToken
  split
  all_goals try exact Nat.le_refl _
  all_goals try exact word _ _
  · unfold stringToken
    split
    · exact length_cutLiteral_le ‹_›
    · simp
  · split
    · unfold numberToken
      split
      · exact Nat.le_of_lt_succ (length_scanLiteral_lt ‹_›)
      · simp
    · simp

/-- The tokens of a text. The last one may be broken. -/
def tokens : List Char → List Token
  | [] => []
  | c :: rest =>
    if Text.isSpace c then tokens rest
    else
      have := length_nextToken_le c rest
      (nextToken c rest).1 :: tokens (nextToken c rest).2
termination_by text => text.length

/-! ## Drafts -/

mutual

/-- A document as far as it could be read. -/
inductive Draft where
  | null
  | bool (value : Bool)
  | number (literal : Literal)
  | string (pieces : List Piece)
  | array (items : Items)
  | object (members : Members)
  /-- Nothing more could be read: the fault of reading, and that of skipping. -/
  | broken (read skipped : Fault)

/-- The items of an array as far as they could be read. -/
inductive Items where
  | closed
  | broken (fault : Fault)
  | item (item : Draft) (others : Items)

/-- The members of an object as far as they could be read. -/
inductive Members where
  | closed
  | broken (read skipped : Fault)
  | member (name : List Piece) (value : Draft) (others : Members)

end

instance : Inhabited Draft := ⟨.null⟩
instance : Inhabited Items := ⟨.closed⟩
instance : Inhabited Members := ⟨.closed⟩

/-- Something read from the front of some tokens, and the tokens after it. -/
abbrev Front (α : Type) (tokens : List Token) :=
  α × { rest : List Token // rest.length ≤ tokens.length }

/-- Something read from tokens without looking at any more of them. -/
def Front.stop {α : Type} {tokens : List Token} (value : α) : Front α tokens :=
  (value, ⟨[], Nat.zero_le _⟩)

mutual

/-- The value at the front of some tokens. -/
def Draft.read (tokens : List Token) : Front Draft tokens :=
  match tokens with
  | [] => .stop (.broken .incomplete .incomplete)
  | .null :: rest => (.null, ⟨rest, Nat.le_succ _⟩)
  | .bool value :: rest => (.bool value, ⟨rest, Nat.le_succ _⟩)
  | .number literal :: rest => (.number literal, ⟨rest, Nat.le_succ _⟩)
  | .string pieces :: rest => (.string pieces, ⟨rest, Nat.le_succ _⟩)
  | .broken read skipped :: _ => .stop (.broken read skipped)
  | .brokenString read skipped :: _ => .stop (.broken read skipped)
  | .openArray :: .closeArray :: rest => (.array .closed, ⟨rest, Nat.le_add_right _ 2⟩)
  | .openArray :: [] => .stop (.array (.broken .incomplete))
  | .openArray :: rest =>
    match Items.read rest with
    | (items, ⟨after, shorter⟩) => (.array items, ⟨after, Nat.le_succ_of_le shorter⟩)
  | .openObject :: .closeObject :: rest => (.object .closed, ⟨rest, Nat.le_add_right _ 2⟩)
  | .openObject :: rest =>
    match Members.read rest with
    | (members, ⟨after, shorter⟩) => (.object members, ⟨after, Nat.le_succ_of_le shorter⟩)
  | _ :: _ => .stop (.broken .malformed .malformed)
termination_by (tokens.length, 0)

/-- The items of an array from a place where one has to begin. -/
def Items.read (tokens : List Token) : Front Items tokens :=
  match Draft.read tokens with
  | (item, ⟨after, shorter⟩) =>
    match after with
    | .closeArray :: rest => (.item item .closed, ⟨rest, Nat.le_of_succ_le shorter⟩)
    | .comma :: .closeArray :: _ => .stop (.item item (.broken .malformed))
    | .comma :: rest =>
      match Items.read rest with
      | (items, ⟨after, shorter'⟩) =>
        (.item item items, ⟨after, Nat.le_trans shorter' (Nat.le_of_succ_le shorter)⟩)
    | [] => .stop (.item item (.broken .incomplete))
    | _ :: _ => .stop (.item item (.broken .malformed))
termination_by (tokens.length, 1)
decreasing_by
  · exact Prod.Lex.right _ (by decide)
  · exact Prod.Lex.left _ _ (Nat.lt_of_succ_le shorter)

/-- The members of an object from a place where one has to begin. -/
def Members.read (tokens : List Token) : Front Members tokens :=
  match tokens with
  | [] => .stop (.broken .incomplete .incomplete)
  | .brokenString read skipped :: _ => .stop (.broken read skipped)
  | .string name :: [] =>
    .stop (.member name (.broken .incomplete .incomplete) (.broken .incomplete .incomplete))
  | .string name :: .colon :: rest =>
    match Draft.read rest with
    | (value, ⟨after, shorter⟩) =>
      match after with
      | .closeObject :: rest =>
        (.member name value .closed,
          ⟨rest, Nat.le_trans (Nat.le_of_succ_le shorter) (Nat.le_add_right _ 2)⟩)
      | .comma :: rest =>
        match Members.read rest with
        | (members, ⟨after, shorter'⟩) =>
          (.member name value members,
            ⟨after, Nat.le_trans shorter'
              (Nat.le_trans (Nat.le_of_succ_le shorter) (Nat.le_add_right _ 2))⟩)
      | [] => .stop (.member name value (.broken .incomplete .incomplete))
      | _ :: _ => .stop (.member name value (.broken .malformed .malformed))
  | .string name :: _ :: _ =>
    .stop (.member name (.broken .malformed .malformed) (.broken .malformed .malformed))
  | _ :: _ => .stop (.broken .malformed .malformed)
termination_by (tokens.length, 0)
decreasing_by
  · exact Prod.Lex.left _ _ (by simp only [List.length_cons]; omega)
  · exact Prod.Lex.left _ _ (by simp only [List.length_cons] at shorter ⊢; omega)

end

/-- A document: its draft, and whether anything follows it. -/
structure Document where
  draft : Draft
  trailing : Bool

/-- The document that a text spells. -/
def Document.ofText (text : String) : Document :=
  match Draft.read (tokens text.toList) with
  | (draft, ⟨rest, _⟩) => ⟨draft, !rest.isEmpty⟩

end CartoStyle.Json
