import CartoStyle.Json.Render
import CartoStyle.Text.Unprintable

/-!
# What can be wrong with a document

A document can fail to be JSON, which is a `Fault`, or it is JSON and not what is asked for, which
is a `Mismatch`. A mismatch has a message of its own.
-/

namespace CartoStyle.Json

/-- What stands in a document where something else was asked for. -/
inductive Found where
  | null
  | bool (value : Bool)
  | number (value : Number)
  | string (value : String)
  | sequence
  | map
deriving DecidableEq

def Found.shown : Found → String
  | .null => "null"
  | .bool value => s!"boolean `{value}`"
  | .number (.whole value) => s!"integer `{value}`"
  | .number (.fraction value) => s!"floating point `{String.ofList (value.chars numberForm)}`"
  | .string value => s!"string {Text.shown value}"
  | .sequence => "sequence"
  | .map => "map"

/-- Why a document is not what is asked for. -/
inductive Mismatch where
  | wrongType (found : Found) (expected : String)
  | wrongValue (found : Found) (expected : String)
  | wrongLength (length : Nat) (expected : String)
  | unknownVariant (name : String) (choices : List String)
  | duplicateField (name : String)
  | missingField (name : String)
  /-- None of the alternatives of a type fits. -/
  | noAlternative (type : String)
  /-- An array that should be a filter begins with a word that is no operator. -/
  | unknownOperator (word : String)
deriving DecidableEq

/-- Choices in a message. -/
def shownChoices (choices : List String) : String :=
  match choices.map fun choice => s!"`{choice}`" with
  | [] => "there are no variants"
  | [only] => s!"expected {only}"
  | [first, second] => s!"expected {first} or {second}"
  | many => "expected one of " ++ ", ".intercalate many

def Mismatch.message : Mismatch → String
  | .wrongType found expected => s!"invalid type: {found.shown}, expected {expected}"
  | .wrongValue found expected => s!"invalid value: {found.shown}, expected {expected}"
  | .wrongLength length expected => s!"invalid length {length}, expected {expected}"
  | .unknownVariant name choices => s!"unknown variant `{name}`, {shownChoices choices}"
  | .duplicateField name => s!"duplicate field `{name}`"
  | .missingField name => s!"missing field `{name}`"
  | .noAlternative type => s!"data did not match any variant of untagged enum {type}"
  | .unknownOperator word => s!"unrecognized filter operator '{word}'"

/-- Why a document could not be read. -/
inductive Problem where
  | fault (cause : Fault)
  | mismatch (cause : Mismatch)
deriving DecidableEq

def Problem.message : Problem → String
  | .fault .incomplete => "the document ends too early"
  | .fault .malformed => "the document is malformed"
  | .mismatch cause => cause.message

end CartoStyle.Json
