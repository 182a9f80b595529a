import CartoStyle.Decimal.Form
import CartoStyle.Decimal.Literal
import CartoStyle.Dictionary
import CartoStyle.Text.Basic

/-!
# Elements

An element has a name, attributes with distinct names, text and children. Attributes keep the type
in which they were computed; what is read from a document has only texts. The readings
`AttrValue.asNumber?` and `AttrValue.asFlag?` take a typed value as it is and interpret a text.
-/

namespace CartoStyle.Xml

/-- The value of an attribute. -/
inductive AttrValue where
  | text (value : String)
  | number (value : Binary64)
  | flag (value : Bool)
deriving DecidableEq, Inhabited

namespace AttrValue

/-- A value as it stands in a document. -/
def shown : AttrValue → String
  | .text value => value
  | .number value => value.text
  | .flag value => toString value

/-- The number that a value is or spells. -/
def asNumber? : AttrValue → Option Binary64
  | .text value => numberOfText? (Text.trim value.toList)
  | .number value => some value
  | .flag _ => none

/-- The truth value that a text spells. -/
def flagOfText? (text : String) : Option Bool :=
  if text = "true" ∨ text = "1" then some true
  else if text = "false" ∨ text = "0" then some false
  else none

/-- The truth value that a value is or spells. -/
def asFlag? : AttrValue → Option Bool
  | .text value => flagOfText? (Text.trimmed value)
  | .number _ => none
  | .flag value => some value

end AttrValue

/-- Values under the names of attributes. -/
abbrev Attributes := Dictionary String AttrValue

/-- A part of a document with everything in it. -/
structure Element where
  name : String
  attributes : Attributes := .empty
  /-- The text between the tags, all pieces joined. -/
  text : Option String := none
  children : List Element := []
deriving Inhabited

namespace Element

/-- An element with one more attribute, or another value for one that it has. -/
def withAttribute (element : Element) (name : String) (value : AttrValue) : Element :=
  { element with attributes := element.attributes.insert name value }

/-- The value of an attribute. -/
def attribute? (element : Element) (name : String) : Option AttrValue :=
  element.attributes.get? name

/-- The value of an attribute as it stands in a document. -/
def attributeText? (element : Element) (name : String) : Option String :=
  (element.attribute? name).map AttrValue.shown

/-- The children of a name. -/
def childrenNamed (element : Element) (name : String) : List Element :=
  element.children.filter fun child => child.name = name

/-- The first child of a name. -/
def firstChild? (element : Element) (name : String) : Option Element :=
  element.children.find? fun child => child.name = name

theorem firstChild?_eq_head? (element : Element) (name : String) :
    element.firstChild? name = (element.childrenNamed name).head? := by
  simp [firstChild?, childrenNamed, List.head?_filter]

@[simp] theorem attribute?_withAttribute_self (element : Element) (name : String)
    (value : AttrValue) :
    (element.withAttribute name value).attribute? name = some value := by
  simp [attribute?, withAttribute]

theorem attribute?_withAttribute_of_ne (element : Element) {name other : String}
    (different : name ≠ other) (value : AttrValue) :
    (element.withAttribute name value).attribute? other = element.attribute? other := by
  simp [attribute?, withAttribute, Dictionary.get?_insert_of_ne _ different]

end Element

end CartoStyle.Xml
