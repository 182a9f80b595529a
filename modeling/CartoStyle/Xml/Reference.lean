import CartoStyle.Xml.Token

/-!
# References

Texts and values may hold references: to a character by its number, to one of the five characters of
markup by name, or to an entity. `pieces?` splits a text at its references and fails if one of them
is malformed.
-/

namespace CartoStyle.Xml

/-- A part of a text as it is spelled. -/
inductive Piece where
  | literal (character : Char)
  /-- A character given by a reference. -/
  | character (character : Char)
  | entity (name : String)
deriving DecidableEq, Inhabited

/-- The characters that have a name. -/
def namedCharacters : List (String × Char) :=
  [("quot", '"'), ("amp", '&'), ("apos", '\''), ("lt", '<'), ("gt", '>')]

/-- What a name between `&` and `;` refers to. -/
def Piece.ofName (name : String) : Piece :=
  match namedCharacters.lookup name with
  | some c => .character c
  | none => .entity name

/-- The character of a number. A number in the place of a character that does not exist gives the
replacement character; beyond thirty-two bits there is nothing. -/
def characterOfNumber? (number : Nat) : Option Char :=
  if Nat.pow 2 32 ≤ number then none
  else
    let c := if number.isValidChar then Char.ofNat number else '\uFFFD'
    if isXmlChar c then some c else none

/-- The value of a digit up to fifteen. -/
def hexValue (c : Char) : Nat :=
  if c.isDigit then c.toNat - '0'.toNat else c.toLower.toNat - 'a'.toNat + 10

def isHexDigit (c : Char) : Bool :=
  c.isDigit || ('a' ≤ c && c ≤ 'f') || ('A' ≤ c && c ≤ 'F')

/-- The value of digits in a base. -/
def numeral (base : Nat) (digits : List Char) : Nat :=
  digits.foldl (fun value digit => value * base + hexValue digit) 0

namespace Scanner

/-- The number of a character, in base ten or, after an `x`, in base sixteen. -/
def characterNumber : Scanner Nat := do
  let base := if ← takes "x" then 16 else 10
  let digits ← takeWhile (if base = 16 then isHexDigit else Char.isDigit)
  require !digits.isEmpty
  return numeral base digits

def reference : Scanner Piece := do
  literal "&"
  if ← takes "#" then
    let number ← characterNumber
    literal ";"
    match characterOfNumber? number with
    | some c => return .character c
    | none => fail
  else
    let name ← plainName
    literal ";"
    return .ofName (String.ofList name)

/-- The next part of a text. -/
def piece : Scanner (Option Piece) := do
  if ← atEnd then return none
  if ← sees "&" then return some (← reference)
  return some (.literal (← one fun _ => true))

theorem advances_piece : piece.Advances := by
  refine advances_bind _ fun _ => advances_ite advances_none ?_
  refine advances_bind _ fun _ => advances_ite ?_ ?_
  · exact advances_of_strict (strict_bind_left (strict_bind_left (strict_literal (by decide)) _) _)
  · exact advances_of_strict (strict_bind_left (strict_one _) _)

end Scanner

/-- The parts of a text. -/
def pieces? (text : List Char) : Option (List Piece) :=
  ((Scanner.many .piece Scanner.advances_piece).run text).map Prod.fst

end CartoStyle.Xml
