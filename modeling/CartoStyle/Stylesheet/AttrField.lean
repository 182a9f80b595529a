import CartoStyle.Stylesheet.NumberList
import CartoStyle.Stylesheet.Traced
import CartoStyle.Vocabulary
import CartoStyle.Xml.Element

/-!
# Fields and attributes

An `AttrField` ties an attribute to a part of a record of type `σ`, in both directions. A table of
fields is written in its order and read in its order, whatever the order of the attributes in the
element, so writing and reading cannot disagree about a name. Most fields hold an optional part in
one of a few forms.
-/

namespace CartoStyle.Stylesheet

open Xml (AttrValue Attributes Element)

/-- How a part of type `α` is written as the value of an attribute, and read from one. -/
structure AttrForm (α : Type) where
  write : α → AttrValue
  /-- Nothing where the value cannot be interpreted. -/
  read : AttrValue → Option α

namespace AttrForm

def text : AttrForm String where
  write := .text
  read value := some value.shown

def number : AttrForm Binary64 where
  write := .number
  read := AttrValue.asNumber?

def flag : AttrForm Bool where
  write := .flag
  read := AttrValue.asFlag?

/-- A keyword; blanks around it do not count. -/
def keyword (α : Type) [Vocabulary α] : AttrForm α where
  write value := .text (Vocabulary.keyword value)
  read value := Vocabulary.ofKeyword? (Text.trimmed value.shown)

/-- Dash lengths. -/
def numbers : AttrForm (List Binary64) where
  write values := .text (joinNumbers values)
  read value := splitNumbers? value.shown

def rotation : AttrForm Binary64 where
  write degrees := .text (rotationText degrees)
  read value := rotation? value.shown

/-- A truth value as a number: one or zero when written; when read, everything above zero is true.
-/
def switch : AttrForm Bool where
  write on := .number (if on then .one else .zero)
  read value := value.asNumber?.map Binary64.isPositive

/-- The names in a text with commas between them; blanks around a name do not count, nor do empty
names. -/
def namesOf (text : String) : List String :=
  ((Text.splitAt ',' text.toList).map Text.trim).filterMap fun name =>
    if name.isEmpty then none else some (String.ofList name)

/-- A list of names. -/
def names : AttrForm (List String) where
  write values := .text (", ".intercalate values)
  read value := some (namesOf value.shown)

end AttrForm

/-- An attribute and the part of a record that it holds. -/
structure AttrField (σ : Type) where
  attributeName : String
  write : σ → Option AttrValue
  /-- The record with what a value says, or nothing where the value cannot be interpreted. -/
  read : AttrValue → σ → Option σ

namespace AttrField

variable {σ α : Type}

/-- The field of an optional part. -/
def of (attributeName : String) (form : AttrForm α) (get : σ → Option α) (set : α → σ → σ) :
    AttrField σ where
  attributeName := attributeName
  write record := (get record).map form.write
  read value record := (form.read value).map fun part => set part record

/-- The attributes of a record put among others, in the order of the table. -/
def writeAll (table : List (AttrField σ)) (record : σ) (attributes : Attributes) : Attributes :=
  table.foldl (fun result field =>
    match field.write record with
    | some value => result.insert field.attributeName value
    | none => result) attributes

/-- What is wrong with an attribute of an element. -/
def invalid (element : Element) (attributeName : String) (value : AttrValue) : Problem :=
  .invalidAttribute element.name attributeName value.shown

/-- A record with what the attributes of an element say, in the order of the table. -/
def readAll (element : Element) : List (AttrField σ) → σ → Except Problem σ
  | [], record => .ok record
  | field :: table, record =>
    match element.attribute? field.attributeName with
    | none => readAll element table record
    | some value =>
      match field.read value record with
      | none => .error (invalid element field.attributeName value)
      | some record => readAll element table record

/-- Whether a name belongs to a table or to some other names. -/
def knows (table : List (AttrField σ)) (extra : List String) (name : String) : Bool :=
  extra.contains name || table.any fun field => field.attributeName = name

/-- A note for each attribute that neither a table nor some other names account for. -/
def ignored (element : Element) (table : List (AttrField σ)) (extra : List String) : List Note :=
  (element.attributes.keys.filter fun name => !knows table extra name).map fun name =>
    .ignoredAttribute name element.name

end AttrField

end CartoStyle.Stylesheet
