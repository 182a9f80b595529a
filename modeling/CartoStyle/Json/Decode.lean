import CartoStyle.Json.Draft
import CartoStyle.Json.Problem

/-!
# Reading drafts

Readers walk a draft from left to right and stop at the first problem. A part that is of the wrong
type is named in the message, which needs a scalar to be intact but not an array or an object to
have an end. Arrays and objects that are read nest at most `levelLimit` deep; those that are skipped
nest freely.

A record is read from an object by the names of its fields, or from an array by their order.
-/

namespace CartoStyle.Json

/-- How many arrays and objects may be open at once where a document is read. -/
def levelLimit : Nat := 127

/-- The problem of an array or object beyond the limit. -/
def tooDeep : Problem := .fault .malformed

namespace Draft

/-- What a message calls a draft. -/
def found : Draft → Except Fault Found
  | .null => .ok .null
  | .bool value => .ok (.bool value)
  | .number literal => ((literal.number?).map Found.number).elim (.error .malformed) .ok
  | .string pieces => ((stringOf? pieces).map Found.string).elim (.error .malformed) .ok
  | .array _ => .ok .sequence
  | .object _ => .ok .map
  | .broken read _ => .error read

/-- The problem of a draft that is not what is expected. -/
def mismatch (expected : String) (draft : Draft) : Problem :=
  match draft.found with
  | .ok found => .mismatch (.wrongType found expected)
  | .error fault => .fault fault

/-- The string of a literal. -/
def ofPieces (pieces : List Piece) : Except Problem String :=
  match stringOf? pieces with
  | some text => .ok text
  | none => .error (.fault .malformed)

/-- A string, described by what it is wanted for. -/
def word (expected : String) : Draft → Except Problem String
  | .string pieces => ofPieces pieces
  | draft => .error (draft.mismatch expected)

/-- A string. -/
def text : Draft → Except Problem String := word "a string"

/-- A number. -/
def binary64 : Draft → Except Problem Binary64
  | .number literal =>
    match literal.number? with
    | some value => .ok value.value
    | none => .error (.fault .malformed)
  | draft => .error (draft.mismatch "f64")

/-- A truth value. -/
def flag : Draft → Except Problem Bool
  | .bool value => .ok value
  | draft => .error (draft.mismatch "a boolean")

/-- Something that may be absent. -/
def optional {α : Type} (read : Draft → Except Problem α) : Draft → Except Problem (Option α)
  | .null => .ok none
  | draft => (read draft).map some

end Draft

/-! ## Whole values -/

mutual

/-- The value of a draft, read to its end. -/
def Draft.complete (levels : Nat) : Draft → Except Problem Value
  | .null => .ok .null
  | .bool value => .ok (.bool value)
  | .number literal =>
    match literal.number? with
    | some value => .ok (.number value)
    | none => .error (.fault .malformed)
  | .string pieces => (Draft.ofPieces pieces).map .string
  | .array items => if levels = 0 then .error tooDeep else (items.complete (levels - 1)).map .array
  | .object members =>
    if levels = 0 then .error tooDeep else (members.complete (levels - 1)).map .object
  | .broken read _ => .error (.fault read)

/-- The values of all items. -/
def Items.complete (levels : Nat) : Items → Except Problem (List Value)
  | .closed => .ok []
  | .broken fault => .error (.fault fault)
  | .item first others => do
    let value ← first.complete levels
    let values ← others.complete levels
    return value :: values

/-- The names and values of all members. -/
def Members.complete (levels : Nat) : Members → Except Problem (List (String × Value))
  | .closed => .ok []
  | .broken read _ => .error (.fault read)
  | .member name value others => do
    let name ← Draft.ofPieces name
    let value ← value.complete levels
    let values ← others.complete levels
    return (name, value) :: values

end

/-! ## Parts that are skipped -/

mutual

/-- A part that nobody asks for. Numbers may go beyond the format, and surrogates may stand alone.
-/
def Draft.skip : Draft → Except Problem Unit
  | .array items => items.skip
  | .object members => members.skip
  | .broken _ skipped => .error (.fault skipped)
  | _ => .ok ()

/-- All items of a part that nobody asks for. -/
def Items.skip : Items → Except Problem Unit
  | .closed => .ok ()
  | .broken fault => .error (.fault fault)
  | .item first others => do
    first.skip
    others.skip

/-- All members of a part that nobody asks for. -/
def Members.skip : Members → Except Problem Unit
  | .closed => .ok ()
  | .broken _ skipped => .error (.fault skipped)
  | .member _ value others => do
    value.skip
    others.skip

end

/-! ## Lists, maps and records -/

/-- All items of an array, read alike. -/
def Items.list {α : Type} (read : Draft → Except Problem α) : Items → Except Problem (List α)
  | .closed => .ok []
  | .broken fault => .error (.fault fault)
  | .item first others => do
    let value ← read first
    let values ← others.list read
    return value :: values

/-- A list; what reads an item is told how many levels are left inside. -/
def Draft.list {α : Type} (read : Nat → Draft → Except Problem α) (levels : Nat) :
    Draft → Except Problem (List α)
  | .array items => if levels = 0 then .error tooDeep else items.list (read (levels - 1))
  | draft => .error (draft.mismatch "a sequence")

/-- All members of an object in order, the names and the values read alike. -/
def Members.entries {α β : Type} (readName : String → Except Problem α)
    (read : Draft → Except Problem β) : Members → Except Problem (List (α × β))
  | .closed => .ok []
  | .broken fault _ => .error (.fault fault)
  | .member name value others => do
    let name ← Draft.ofPieces name
    let name ← readName name
    let value ← read value
    let entries ← others.entries readName read
    return (name, value) :: entries

/-- A map; what reads a value is told how many levels are left inside. -/
def Draft.map {α β : Type} (readName : String → Except Problem α)
    (read : Nat → Draft → Except Problem β) (levels : Nat) : Draft → Except Problem (List (α × β))
  | .object members =>
    if levels = 0 then .error tooDeep else members.entries readName (read (levels - 1))
  | draft => .error (draft.mismatch "a map")

/-- A field of a record of type `σ`, which may be left out. -/
structure Field (σ : Type) where
  name : String
  /-- Other names of the field. -/
  aliases : List String
  /-- The record with the field set to what a draft says. -/
  read : Nat → Draft → σ → Except Problem σ

/-- Whether a field goes by a name. -/
def Field.answersTo {σ : Type} (name : String) (field : Field σ) : Bool :=
  field.name == name || field.aliases.contains name

/-- The fields given by the members of an object. No field is given twice; other members are
skipped. -/
def Members.record {σ : Type} (fields : List (Field σ)) (levels : Nat) (seen : List String) :
    Members → σ → Except Problem σ
  | .closed, record => .ok record
  | .broken read _, _ => .error (.fault read)
  | .member name value others, record => do
    let name ← Draft.ofPieces name
    match fields.find? (·.answersTo name) with
    | none =>
      value.skip
      others.record fields levels seen record
    | some field =>
      if seen.contains field.name then .error (.mismatch (.duplicateField field.name))
      else
        let record ← field.read levels value record
        others.record fields levels (field.name :: seen) record

/-- The fields given by the items of an array, in their order. An item too many is malformed. -/
def Items.record {σ : Type} (levels : Nat) : List (Field σ) → Items → σ → Except Problem σ
  | _, .closed, record => .ok record
  | _, .broken fault, _ => .error (.fault fault)
  | [], .item _ _, _ => .error (.fault .malformed)
  | field :: fields, .item first others, record => do
    let record ← field.read levels first record
    others.record levels fields record

/-- A record of a named type. Fields that are not given stay as they are in `default`. -/
def Draft.record {σ : Type} (type : String) (fields : List (Field σ)) (default : σ) (levels : Nat) :
    Draft → Except Problem σ
  | .object members =>
    if levels = 0 then .error tooDeep else members.record fields (levels - 1) [] default
  | .array items =>
    if levels = 0 then .error tooDeep else items.record (levels - 1) fields default
  | draft => .error (draft.mismatch s!"struct {type}")

/-- What a whole text says, read as one document. -/
def decode {α : Type} (read : Nat → Draft → Except Problem α) (text : String) : Except Problem α :=
  let document := Document.ofText text
  match read levelLimit document.draft with
  | .ok value => if document.trailing then .error (.fault .malformed) else .ok value
  | .error problem => .error problem

end CartoStyle.Json
