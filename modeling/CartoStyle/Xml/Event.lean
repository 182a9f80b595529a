import CartoStyle.Xml.Reference

/-!
# Events

Events are tokens without references. A reference to an entity stands for the events of the entity's
text, which is read as content of its own. The texts of entities may refer to entities in turn,
within two limits: so many levels deep (`levelLimit`), and so often under one reference of the
document (`referenceLimit`).

Line ends in texts become line feeds, and space in values becomes blanks. A character that the
document gives by reference is spared, and in a text so is the literal character after it.
-/

namespace CartoStyle.Xml

inductive Event where
  | start (name : QualifiedName) (attributes : List (QualifiedName × List Char)) (closed : Bool)
  /-- A start tag at which the text of an entity ends. -/
  | unfinished (name : QualifiedName) (attributes : List (QualifiedName × List Char))
  | finish (name : QualifiedName)
  | text (characters : List Char)
deriving DecidableEq, Inhabited

/-- The texts of entities by their names. The first of a name counts. -/
abbrev Entities := List (String × List Char)

/-- How deep the texts of entities may stand in one another. -/
def levelLimit : Nat := 10

/-- How many references the texts of entities may hold under one reference of the document. -/
def referenceLimit : Nat := 255

/-- A computation that fails or uses up references out of a number that is left. -/
abbrev Expansion := StateT Nat Option

/-- Uses up a reference. One in the document itself makes the whole number available. -/
def Expansion.useReference (outer : Bool) : Expansion Unit :=
  if outer then set referenceLimit
  else do
    match ← get with
    | 0 => failure
    | left + 1 => set left

/-- The text of an entity. -/
def Entities.textOf (entities : Entities) (name : String) : Expansion (List Char) :=
  match entities.lookup name with
  | some text => pure text
  | none => failure

/-! ## Values -/

/-- A character of a value. Every space is a blank there. -/
def valueChar (c : Char) : Char := if Text.isSpace c then ' ' else c

/-- The characters of a value. In the text of an entity no reference may stand for `<`, nor is any
reference spared. -/
def valueOfPieces (inner : String → Expansion (List Char)) (outer : Bool) :
    List Piece → Expansion (List Char)
  | [] => pure []
  | .literal c :: others => do
    let after ← valueOfPieces inner outer others
    match c, others with
    | '\r', .literal '\n' :: _ => return after
    | _, _ => return valueChar c :: after
  | .character c :: others => do
    if !outer && c == '<' then failure
    let after ← valueOfPieces inner outer others
    return (if outer then c else valueChar c) :: after
  | .entity name :: others => do
    let inside ← inner name
    let after ← valueOfPieces inner outer others
    return inside ++ after

/-- The value of an attribute. -/
def expandValue (entities : Entities) : Nat → Bool → List Char → Expansion (List Char)
  | 0, outer, spelled => do
    let pieces ← (pieces? spelled : Option (List Piece))
    valueOfPieces (fun _ => failure) outer pieces
  | levels + 1, outer, spelled => do
    let pieces ← (pieces? spelled : Option (List Piece))
    valueOfPieces (fun name => do
      let text ← entities.textOf name
      Expansion.useReference outer
      expandValue entities levels false text) outer pieces

/-! ## Texts -/

/-- Characters in reverse with one more at their end. A carriage return is a line end, together with
a line feed after it; it is settled by what follows it or, as the last character of all, at once. -/
def pushText (reversed : List Char) (c : Char) (last : Bool) : List Char :=
  match reversed with
  | '\r' :: before =>
    if last && c == '\r' then '\n' :: '\n' :: before
    else if c == '\n' then '\n' :: before
    else c :: '\n' :: before
  | _ => if last && c == '\r' then '\n' :: reversed else c :: reversed

/-- Characters in reverse with a text at their end. -/
def pushTextAll (reversed : List Char) : List Char → List Char
  | [] => reversed
  | c :: others => pushTextAll (pushText reversed c others.isEmpty) others

/-- The event of characters given in reverse, if there are any. -/
def Event.ofReversed (reversed : List Char) : List Event :=
  if reversed.isEmpty then [] else [.text reversed.reverse]

/-- The events of a text, of which some characters have been read; `spared` is the next one if it is
literal. -/
def eventsOfPieces (inner : String → Expansion (List Event)) (outer : Bool) :
    List Char → Bool → List Piece → Expansion (List Event)
  | reversed, _, [] => pure (Event.ofReversed reversed)
  | reversed, true, .literal c :: others => eventsOfPieces inner outer (c :: reversed) false others
  | reversed, false, .literal c :: others =>
    eventsOfPieces inner outer (pushText reversed c others.isEmpty) false others
  | reversed, spared, .character c :: others =>
    if outer then eventsOfPieces inner outer (c :: reversed) true others
    else eventsOfPieces inner outer (pushText reversed c others.isEmpty) spared others
  | reversed, _, .entity name :: others => do
    let inside ← inner name
    let after ← eventsOfPieces inner outer [] false others
    return Event.ofReversed reversed ++ inside ++ after

/-! ## Content -/

/-- The events of tokens, given what to do with values and with the entities in texts. -/
def eventsOfTokens (value : List Char → Expansion (List Char))
    (inner : String → Expansion (List Event)) (outer : Bool) : List Token → Expansion (List Event)
  | [] => pure []
  | .start name attributes closed :: others => do
    let values ← attributes.mapM fun (name, spelled) => do return (name, ← value spelled)
    let after ← eventsOfTokens value inner outer others
    return .start name values closed :: after
  | .unfinished name attributes :: others => do
    let values ← attributes.mapM fun (name, spelled) => do return (name, ← value spelled)
    let after ← eventsOfTokens value inner outer others
    return .unfinished name values :: after
  | .finish name :: others => do
    let after ← eventsOfTokens value inner outer others
    return .finish name :: after
  | .text spelled :: others => do
    let pieces ← (pieces? spelled : Option (List Piece))
    let events ← eventsOfPieces inner outer [] false pieces
    let after ← eventsOfTokens value inner outer others
    return events ++ after
  | .verbatim text :: others => do
    let after ← eventsOfTokens value inner outer others
    return Event.ofReversed (pushTextAll [] text) ++ after
  | .silent :: others => eventsOfTokens value inner outer others

/-- Whether the first tag among some tokens is an end tag. -/
def finishesFirst : List Token → Bool
  | .start .. :: _ => false
  | .unfinished .. :: _ => false
  | .finish _ :: _ => true
  | _ :: others => finishesFirst others
  | [] => false

/-- The tokens of an entity's text. An end tag in it must come after a start tag. -/
def entityTokens? (text : List Char) : Option (List Token) := do
  let (tokens, _) ← Scanner.content.run text
  if finishesFirst tokens then none else some tokens

/-- The events of tokens in the document or, at some level, in the texts of entities. -/
def expandTokens (entities : Entities) : Nat → Bool → List Token → Expansion (List Event)
  | 0, outer, tokens =>
    eventsOfTokens (expandValue entities 0 outer) (fun _ => failure) outer tokens
  | levels + 1, outer, tokens =>
    eventsOfTokens (expandValue entities (levels + 1) outer) (fun name => do
      let text ← entities.textOf name
      Expansion.useReference outer
      let inside ← (entityTokens? text : Option (List Token))
      expandTokens entities levels false inside) outer tokens

/-- The events of the tokens of a document. -/
def Event.ofTokens? (entities : Entities) (tokens : List Token) : Option (List Event) :=
  ((expandTokens entities levelLimit true tokens).run 0).map Prod.fst

end CartoStyle.Xml
