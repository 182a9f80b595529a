import CartoStyle.Text.Basic

/-!
# String literals of JSON

Writing escapes quotes, backslashes and control characters, nothing else. Reading first cuts a
literal into pieces, each a character or a sixteen-bit unit given by its code, and then joins the
pieces to a string. The two steps fail apart: a literal that is only skipped need not join, and one
whose surrogates stand alone can be cut but not joined.
-/

namespace CartoStyle.Json

/-- A place from which a document cannot be read on. -/
inductive Fault where
  /-- The document ends too early. -/
  | incomplete
  | malformed
deriving DecidableEq, Repr

/-! ## Writing -/

/-- A hexadecimal digit, in lower case. -/
def hexDigit (n : Nat) : Char := Nat.digitChar n

/-- How a character stands in a literal. -/
def escapedChar (c : Char) : List Char :=
  match c with
  | '"' => ['\\', '"']
  | '\\' => ['\\', '\\']
  | '\x08' => ['\\', 'b']
  | '\x0c' => ['\\', 'f']
  | '\n' => ['\\', 'n']
  | '\r' => ['\\', 'r']
  | '\t' => ['\\', 't']
  | c =>
    if c.toNat < 0x20 then
      ['\\', 'u', '0', '0', hexDigit (c.toNat / 16), hexDigit (c.toNat % 16)]
    else [c]

/-- A string literal. -/
def literalOf (text : List Char) : List Char := '"' :: text.flatMap escapedChar ++ ['"']

/-! ## Reading -/

/-- A part of a string literal. -/
inductive Piece where
  | char (c : Char)
  /-- A unit of sixteen bits, written by its code. -/
  | unit (code : Nat)
deriving DecidableEq

/-- The value of a hexadecimal digit. -/
def hexValue? (c : Char) : Option Nat :=
  if '0' ≤ c ∧ c ≤ '9' then some (c.toNat - '0'.toNat)
  else if 'a' ≤ c ∧ c ≤ 'f' then some (c.toNat - 'a'.toNat + 10)
  else if 'A' ≤ c ∧ c ≤ 'F' then some (c.toNat - 'A'.toNat + 10)
  else none

/-- The character that a letter stands for after a backslash. -/
def escapeOf? : Char → Option Char
  | '"' => some '"'
  | '\\' => some '\\'
  | '/' => some '/'
  | 'b' => some '\x08'
  | 'f' => some '\x0c'
  | 'n' => some '\n'
  | 'r' => some '\r'
  | 't' => some '\t'
  | _ => none

/-- Whether fewer than four bytes of a text are left. -/
def fewerThanFourBytes (text : List Char) : Bool := Text.byteLength (text.take 4) < 4

/-- The pieces of a literal after its opening quote, and what follows its closing quote; or the
pieces before the place where it cannot be cut on. -/
def cutLiteral : List Char → List Piece × Except Fault (List Char)
  | [] => ([], .error .incomplete)
  | '"' :: rest => ([], .ok rest)
  | '\\' :: 'u' :: rest =>
    match rest with
    | a :: b :: c :: d :: after =>
      match hexValue? a, hexValue? b, hexValue? c, hexValue? d with
      | some a, some b, some c, some d =>
        let (pieces, result) := cutLiteral after
        (.unit (((a * 16 + b) * 16 + c) * 16 + d) :: pieces, result)
      | _, _, _, _ => ([], .error .malformed)
    | _ => ([], .error (if fewerThanFourBytes rest then .incomplete else .malformed))
  | '\\' :: c :: rest =>
    match escapeOf? c with
    | some meant =>
      let (pieces, result) := cutLiteral rest
      (.char meant :: pieces, result)
    | none => ([], .error .malformed)
  | ['\\'] => ([], .error .incomplete)
  | c :: rest =>
    if c.toNat < 0x20 then ([], .error .malformed)
    else
      let (pieces, result) := cutLiteral rest
      (.char c :: pieces, result)

/-- A unit that opens a pair of surrogates. -/
def isHighSurrogate (code : Nat) : Bool := 0xD800 ≤ code && code ≤ 0xDBFF

/-- A unit that closes a pair of surrogates. -/
def isLowSurrogate (code : Nat) : Bool := 0xDC00 ≤ code && code ≤ 0xDFFF

/-- The characters of some pieces; none if a surrogate stands alone. At the end of a literal that
breaks off, a surrogate may still wait for its partner. -/
def joinPieces? (brokenOff : Bool) : List Piece → Option (List Char)
  | [] => some []
  | .char c :: rest => (joinPieces? brokenOff rest).map (c :: ·)
  | .unit high :: rest =>
    if isHighSurrogate high then
      match rest with
      | .unit low :: rest =>
        if isLowSurrogate low then
          (joinPieces? brokenOff rest).map
            (Char.ofNat (0x10000 + (high - 0xD800) * 0x400 + (low - 0xDC00)) :: ·)
        else none
      | [] => if brokenOff then some [] else none
      | _ => none
    else if isLowSurrogate high then none
    else (joinPieces? brokenOff rest).map (Char.ofNat high :: ·)

/-- The string of a complete literal. -/
def stringOf? (pieces : List Piece) : Option String := (joinPieces? false pieces).map String.ofList

end CartoStyle.Json
