import CartoStyle.Json.Decode
import CartoStyle.Vocabulary

/-!
# Codecs

A `Codec` pairs the two directions between a type and complete JSON values. A record is a table of
`Entry`s, one for each field, and both directions walk that table. A choice between records is
tagged: the member `kind` names the choice, and the other members are the fields.

Unlike a draft, a value is whole when it is read, so nothing but a mismatch can go wrong here.
-/

namespace CartoStyle.Json

/-- What a message calls a value. -/
def Value.found : Value → Found
  | .null => .null
  | .bool value => .bool value
  | .number value => .number value
  | .string value => .string value
  | .array _ => .sequence
  | .object _ => .map

/-- The mismatch of a value that is not what is expected. -/
def Value.mismatch (expected : String) (value : Value) : Mismatch :=
  .wrongType value.found expected

/-- Two directions between a type and JSON values. -/
structure Codec (α : Type) where
  write : α → Value
  read : Value → Except Mismatch α

namespace Codec

def text : Codec String where
  write := .string
  read
    | .string value => .ok value
    | other => .error (other.mismatch "a string")

def number : Codec Binary64 where
  write value := .number (.fraction value)
  read
    | .number value => .ok value.value
    | other => .error (other.mismatch "f64")

def flag : Codec Bool where
  write := .bool
  read
    | .bool value => .ok value
    | other => .error (other.mismatch "a boolean")

/-- A list of any length. -/
def list {α : Type} (codec : Codec α) : Codec (List α) where
  write values := .array (values.map codec.write)
  read
    | .array items => items.mapM codec.read
    | other => .error (other.mismatch "a sequence")

/-- An array of two items. -/
def pair {α : Type} (codec : Codec α) : Codec (α × α) where
  write values := .array [codec.write values.1, codec.write values.2]
  read
    | .array [] => .error (.wrongLength 0 "an array of length 2")
    | .array (first :: rest) => do
      let first ← codec.read first
      match rest with
      | [] => .error (.wrongLength 1 "an array of length 2")
      | second :: others =>
        let second ← codec.read second
        if others.isEmpty then .ok (first, second)
        else .error (.wrongLength (others.length + 2) "2 elements in sequence")
    | other => .error (other.mismatch "an array of length 2")

end Codec

/-- The value that a word names. -/
def readKeyword (α : Type) [Vocabulary α] (word : String) : Except Mismatch α :=
  match Vocabulary.ofKeyword? word with
  | some value => .ok value
  | none => .error (.unknownVariant word (Vocabulary.keywords α))

/-- A keyword: a string, or an object whose only member has that name and no content. -/
def Codec.keyword (α : Type) [Vocabulary α] : Codec α where
  write value := .string (Vocabulary.keyword value)
  read
    | .string word => readKeyword α word
    | .object [(word, content)] => do
      let value ← readKeyword α word
      match content with
      | .null => .ok value
      | .object [] => .ok value
      | other => .error (other.mismatch "unit")
    | .object _ => .error (.wrongValue .map "map with a single key")
    | other => .error (other.mismatch "string or map")

/-! ## Records -/

/-- A field of a record of type `σ` that may be absent. -/
structure Entry (σ : Type) where
  name : String
  write : σ → Option Value
  read : Value → σ → Except Mismatch σ

/-- The field that holds an optional part of a record; `null` leaves it absent. -/
def Entry.of {σ α : Type} (name : String) (codec : Codec α) (get : σ → Option α)
    (set : α → σ → σ) : Entry σ where
  name := name
  write record := (get record).map codec.write
  read
    | .null, record => .ok record
    | value, record => (codec.read value).map fun part => set part record

namespace Entry

variable {σ : Type}

/-- The fields of a record that are present, in the order of the table. -/
def writeAll (entries : List (Entry σ)) (record : σ) : List (String × Value) :=
  entries.filterMap fun entry => (entry.write record).map fun value => (entry.name, value)

/-- The fields given by members. No field is given twice; other members do not count. -/
def readMembers (entries : List (Entry σ)) (seen : List String) :
    List (String × Value) → σ → Except Mismatch σ
  | [], record => .ok record
  | (name, value) :: others, record =>
    match entries.find? fun entry => entry.name == name with
    | none => readMembers entries seen others record
    | some entry =>
      if seen.contains name then .error (.duplicateField name)
      else do
        let record ← entry.read value record
        readMembers entries (name :: seen) others record

/-- The fields given by items, in the order of the table; `type` and `size` describe all of it. -/
def readItems (type : String) (size : Nat) : List (Entry σ) → List Value → σ → Except Mismatch σ
  | [], [], record => .ok record
  | [], extra@(_ :: _), _ =>
    .error (.wrongLength (size + extra.length) s!"{size} elements in sequence")
  | missing@(_ :: _), [], _ =>
    .error (.wrongLength (size - missing.length) s!"struct {type} with {size} elements")
  | entry :: entries, item :: items, record => do
    let record ← entry.read item record
    readItems type size entries items record

/-- A record of a named type. -/
def readRecord (type : String) (entries : List (Entry σ)) (default : σ) : Value → Except Mismatch σ
  | .object members => readMembers entries [] members default
  | .array items => readItems type entries.length entries items default
  | other => .error (other.mismatch s!"struct {type}")

end Entry

/-! ## Choices -/

/-- The member that names the choice. -/
def tagName : String := "kind"

/-- The object of a choice: its tag, then its fields. -/
def taggedValue (tag : String) (fields : List (String × Value)) : Value :=
  .object ((tagName, .string tag) :: fields)

/-- The choice that a value names, by its keyword or by its place in the order. -/
def readTag (κ : Type) [Vocabulary κ] : Value → Except Mismatch κ
  | .string word => readKeyword κ word
  | .number (.whole place) =>
    if place < 0 then .error (.wrongType (.number (.whole place)) "variant identifier")
    else match (Vocabulary.all : List κ)[place.toNat]? with
      | some choice => .ok choice
      | none =>
        .error (.wrongValue (.number (.whole place))
          s!"variant index 0 <= i < {(Vocabulary.all : List κ).length}")
  | other => .error (other.mismatch "variant identifier")

/-- The tag among some members, and the other members. -/
def splitTag {κ : Type} [Vocabulary κ] : Option κ → List (String × Value) →
    Except Mismatch (κ × List (String × Value))
  | none, [] => .error (.missingField tagName)
  | some tag, [] => .ok (tag, [])
  | tag, (name, value) :: others =>
    if name = tagName then
      match tag with
      | some _ => .error (.duplicateField tagName)
      | none => do
        let tag ← readTag κ value
        splitTag (some tag) others
    else do
      let (tag, fields) ← splitTag tag others
      return (tag, (name, value) :: fields)

/-- The tag of a choice of a named type and the value of its fields. -/
def Value.tagged (type : String) (κ : Type) [Vocabulary κ] : Value → Except Mismatch (κ × Value)
  | .object members =>
    (splitTag (none : Option κ) members).map fun (tag, fields) => (tag, .object fields)
  | .array [] => .error (.missingField tagName)
  | .array (tag :: fields) => (readTag κ tag).map fun tag => (tag, .array fields)
  | other => .error (other.mismatch s!"internally tagged enum {type}")

/-- A mismatch as the problem of a document. -/
def liftMismatch {α : Type} : Except Mismatch α → Except Problem α
  | .ok value => .ok value
  | .error cause => .error (.mismatch cause)

/-- The tag that a draft names. -/
def Draft.tag (κ : Type) [Vocabulary κ] (draft : Draft) : Except Problem κ := do
  let word ← draft.word "variant identifier"
  liftMismatch (readKeyword κ word)

/-- The tag among some members, and the values of the other members. -/
def Members.splitTag {κ : Type} [Vocabulary κ] (levels : Nat) : Option κ → Members →
    Except Problem (κ × List (String × Value))
  | none, .closed => .error (.mismatch (.missingField tagName))
  | some tag, .closed => .ok (tag, [])
  | _, .broken read _ => .error (.fault read)
  | tag, .member name value others => do
    let name ← Draft.ofPieces name
    if name = tagName then
      match tag with
      | some _ => .error (.mismatch (.duplicateField tagName))
      | none =>
        let tag ← value.tag κ
        others.splitTag levels (some tag)
    else
      let value ← value.complete levels
      let (tag, fields) ← others.splitTag levels tag
      return (tag, (name, value) :: fields)

/-- The tag of a choice of a named type and the value of its fields. The tag is read where it
stands. -/
def Draft.tagged (type : String) (κ : Type) [Vocabulary κ] (levels : Nat) :
    Draft → Except Problem (κ × Value)
  | .object members =>
    if levels = 0 then .error tooDeep
    else (members.splitTag (levels - 1) (none : Option κ)).map
      fun (tag, fields) => (tag, .object fields)
  | .array items =>
    if levels = 0 then .error tooDeep
    else match items with
      | .closed => .error (.mismatch (.missingField tagName))
      | .broken fault => .error (.fault fault)
      | .item first others => do
        let tag ← first.tag κ
        let fields ← others.complete (levels - 1)
        return (tag, .array fields)
  | draft => .error (draft.mismatch s!"internally tagged enum {type}")

end CartoStyle.Json
