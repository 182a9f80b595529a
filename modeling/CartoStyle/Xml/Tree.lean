import CartoStyle.Xml.Element
import CartoStyle.Xml.Prolog

/-!
# From events to elements

`Element.ofEvents?` builds the root from the events of a document. Qualifiers stand for name spaces,
which attributes declare; no two attributes of a tag may have the same name in the same space. The
elements themselves are known by their names without qualifiers, and so are their attributes: of two
with the same name the last value counts.

A start tag that is unfinished opens no element. Its attributes go to the next tag, where they stand
before the tag's own.
-/

namespace CartoStyle.Xml

/-! ## Name spaces -/

/-- The qualifier of declarations, and the name of the declaration for names without qualifier. -/
def declarationName : String := "xmlns"

/-- The qualifier that attributes need not declare and no element may have. -/
def reservedQualifier : String := "xml"

/-- The name space of the reserved qualifier. -/
def reservedSpace : String := "http://www.w3.org/XML/1998/namespace"

/-- The name space of declarations. -/
def declarationSpace : String := "http://www.w3.org/2000/xmlns/"

/-- Qualifiers with the name spaces that they stand for, the innermost declaration first. -/
abbrev Bindings := List (String × String)

/-- Whether an attribute declares a name space. -/
def QualifiedName.declares (name : QualifiedName) : Bool :=
  name.qualifier = declarationName || name.name = declarationName

/-- Whether a declaration is allowed: the reserved qualifier goes with the reserved space, and
nothing with the space of declarations. -/
def allowedDeclaration (name : QualifiedName) (space : String) : Bool :=
  space ≠ declarationSpace &&
    decide (space = reservedSpace ↔
      name.qualifier = declarationName ∧ name.name = reservedQualifier)

/-- The qualifiers that the attributes of a tag declare. The space of names without qualifier is
never asked for. -/
def declarations? (attributes : List (QualifiedName × List Char)) : Option Bindings := do
  let declared := attributes.filterMap fun (name, value) =>
    if name.declares then some (name, String.ofList value) else none
  if !declared.all fun (name, space) => allowedDeclaration name space then none
  let bindings := declared.filterMap fun (name, space) =>
    if name.qualifier = declarationName && name.name ≠ reservedQualifier
      then some (name.name, space)
    else none
  if (bindings.map Prod.fst).Nodup then some bindings else none

/-- The declared name space of a qualifier; none for names without qualifier. -/
def spaceOf? (bindings : Bindings) (qualifier : String) : Option (Option String) :=
  if qualifier = "" then some none
  else (bindings.lookup qualifier).map some

/-- The bindings that the qualifiers of attributes are looked up in. -/
def withReserved (bindings : Bindings) : Bindings := (reservedQualifier, reservedSpace) :: bindings

/-- The attributes of a tag, declarations aside. -/
def plainAttributes? (bindings : Bindings) (attributes : List (QualifiedName × List Char)) :
    Option Attributes := do
  let plain := attributes.filter fun (name, _) => !name.declares
  let expanded ← plain.mapM fun (name, _) => do
    return (← spaceOf? (withReserved bindings) name.qualifier, name.name)
  if expanded.Nodup then
    some (.ofList (plain.map fun (name, value) => (name.name, .text (String.ofList value))))
  else none

/-! ## Elements -/

/-- An element whose end tag is still to come. -/
structure OpenElement where
  name : QualifiedName
  attributes : Attributes
  bindings : Bindings
  /-- The pieces of its text, the last one first. -/
  pieces : List (List Char) := []
  /-- The children so far, the last one first. -/
  children : List Element := []

namespace OpenElement

/-- The text of an element: its pieces joined and trimmed, unless that leaves nothing. -/
def text? (pieces : List (List Char)) : Option String :=
  let text := Text.trim pieces.reverse.flatten
  if text.isEmpty then none else some (String.ofList text)

/-- The element at its end tag. -/
def close (element : OpenElement) : Element where
  name := element.name.name
  attributes := element.attributes
  text := text? element.pieces
  children := element.children.reverse

end OpenElement

/-- The elements that are open, the innermost first, and the roots that are complete, the last
first. -/
structure Construction where
  pending : List OpenElement := []
  roots : List Element := []
  /-- The attributes of unfinished tags, which go to the next tag. -/
  loose : List (QualifiedName × List Char) := []

namespace Construction

/-- Adds a complete element where it belongs. -/
def add (tree : Construction) (element : Element) : Construction :=
  match tree.pending with
  | [] => { tree with roots := element :: tree.roots }
  | parent :: others =>
    { tree with pending := { parent with children := element :: parent.children } :: others }

/-- The declarations in force. -/
def bindings (tree : Construction) : Bindings :=
  match tree.pending with
  | [] => []
  | parent :: _ => parent.bindings

/-- The attributes of a tag, after the loose ones, and the declarations in force with them. -/
def attributes? (tree : Construction) (attributes : List (QualifiedName × List Char)) :
    Option (Attributes × Bindings) := do
  let all := tree.loose ++ attributes
  let bindings := (← declarations? all) ++ tree.bindings
  return (← plainAttributes? bindings all, bindings)

/-- Opens an element. -/
def open? (tree : Construction) (name : QualifiedName)
    (attributes : List (QualifiedName × List Char)) :
    Option OpenElement := do
  if name.qualifier = declarationName then none
  let (attributes, bindings) ← tree.attributes? attributes
  let _ ← spaceOf? bindings name.qualifier
  return { name, attributes, bindings }

/-- Sets attributes loose. Their declarations are checked at once. -/
def loosen? (tree : Construction) (name : QualifiedName)
    (attributes : List (QualifiedName × List Char)) : Option Construction := do
  if name.qualifier = declarationName then none
  let loose := tree.loose ++ attributes
  let _ ← declarations? loose
  return { tree with loose }

/-- Takes an event into account. Loose attributes are dropped at an end tag, once checked. -/
def step? (tree : Construction) : Event → Option Construction
  | .start name attributes closed => do
    let element ← tree.open? name attributes
    let tree := { tree with loose := [] }
    if closed then return tree.add element.close
    else return { tree with pending := element :: tree.pending }
  | .unfinished name attributes => tree.loosen? name attributes
  | .finish name =>
    match tree.pending with
    | [] => none
    | element :: others => do
      let _ ← tree.attributes? []
      if element.name = name then
        return { tree with pending := others, loose := [] }.add element.close
      else none
  | .text characters =>
    match tree.pending with
    | [] => some tree
    | element :: others =>
      some { tree with
        pending := { element with pieces := characters :: element.pieces } :: others }

/-- The first root, once nothing is open. -/
def root? (tree : Construction) : Option Element :=
  match tree.pending with
  | [] => tree.roots.getLast?
  | _ :: _ => none

end Construction

/-- The root of a document with given events. -/
def Element.ofEvents? (events : List Event) : Option Element := do
  (← events.foldlM Construction.step? {}).root?

/-- The root of the document that a text is, if it is well formed. -/
def Element.ofText? (text : String) : Option Element := do
  let ((entities, tokens), _) ← Scanner.document.run text.toList
  Element.ofEvents? (← Event.ofTokens? entities tokens)

end CartoStyle.Xml
