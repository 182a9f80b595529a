import CartoStyle.Decimal.Form
import CartoStyle.Json.Basic
import CartoStyle.Json.Text

/-!
# Writing JSON

A document is written in one line without spaces, or with one item to a line and two spaces for each
level. Numbers of the format without digits are written `null`.
-/

namespace CartoStyle.Json

/-- Numbers always show a fraction or an exponent; exponents from `-5` to `15` are written out. -/
def numberForm : NumberForm where
  tie := .toEven
  positional := some (-5, 15)
  wholeEnding := ".0".toList
  nan := "null".toList
  infinity := "null".toList

/-- The characters of a number. -/
def Number.chars : Number → List Char
  | .whole value => (toString value).toList
  | .fraction value => if value.isFinite then value.chars numberForm else "null".toList

/-- What stands between two parts of a document: nothing in one line, else a new line at a level. -/
def lineBreak : Option Nat → List Char
  | none => []
  | some level => '\n' :: List.replicate (2 * level) ' '

/-- What stands after the name of a member. -/
def afterName : Option Nat → List Char
  | none => [':']
  | some _ => [':', ' ']

/-- One level deeper. -/
def deeper : Option Nat → Option Nat := Option.map (· + 1)

namespace Value

mutual

/-- The characters of a value at a level, or in one line. -/
def chars (level : Option Nat) : Value → List Char
  | .null => "null".toList
  | .bool true => "true".toList
  | .bool false => "false".toList
  | .number value => value.chars
  | .string value => literalOf value.toList
  | .array [] => "[]".toList
  | .array items => '[' :: itemChars (deeper level) items ++ lineBreak level ++ [']']
  | .object [] => ['\x7b', '\x7d']
  | .object members =>
    '\x7b' :: memberChars (deeper level) members ++ lineBreak level ++ ['\x7d']

/-- The items of an array, a comma between them. -/
def itemChars (level : Option Nat) : List Value → List Char
  | [] => []
  | [item] => lineBreak level ++ chars level item
  | item :: others => lineBreak level ++ chars level item ++ ',' :: itemChars level others

/-- The members of an object, a comma between them. -/
def memberChars (level : Option Nat) : List (String × Value) → List Char
  | [] => []
  | [(name, value)] =>
    lineBreak level ++ literalOf name.toList ++ afterName level ++ chars level value
  | (name, value) :: others =>
    lineBreak level ++ literalOf name.toList ++ afterName level ++ chars level value ++
      ',' :: memberChars level others

end

/-- The document in one line. -/
def compact (value : Value) : String := String.ofList (value.chars none)

/-- The document with one item to a line. -/
def pretty (value : Value) : String := String.ofList (value.chars (some 0))

end Value

end CartoStyle.Json
