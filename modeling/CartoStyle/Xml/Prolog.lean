import CartoStyle.Xml.Event

/-!
# Before the root

A document may begin with a declaration of its version and with a document type, whose internal
subset declares entities. Declarations of other things are passed over, and so are entities that are
kept elsewhere.
-/

namespace CartoStyle.Xml.Scanner

/-- Space, unless the declaration is over. -/
def spaceInDeclaration : Scanner Unit := do
  if (← takeWhile Text.isSpace).isEmpty then
    require ((← sees "?>") || (← atEnd))

/-- The first line of a document. Only its version must be there. -/
def declaration : Scanner Unit := do
  literal "<?xml"
  spaceInDeclaration
  require (← sees "version")
  let _ ← spelledAttribute
  spaceInDeclaration
  if ← sees "encoding" then
    let _ ← spelledAttribute
    spaceInDeclaration
  if ← sees "standalone" then
    let _ ← spelledAttribute
  spaces
  literal "?>"

/-- A comment or an instruction, if one is next after spaces. -/
def remark : Scanner (Option Token) := do
  spaces
  if ← sees "<!--" then return some (← comment)
  if ← sees "<?" then return some (← instruction)
  return none

theorem strict_comment : comment.Strict := strict_bind_left (strict_literal (by decide)) _

theorem strict_instruction : instruction.Strict :=
  strict_bind_right _ fun _ => strict_bind_right _ fun _ =>
    strict_bind_left (strict_literal (by decide)) _

theorem advances_remark : remark.Advances := by
  refine advances_bind _ fun _ => advances_bind _ fun _ => advances_ite ?_ ?_
  · exact advances_of_strict (strict_bind_left strict_comment _)
  · exact advances_bind _ fun _ =>
      advances_ite (advances_of_strict (strict_bind_left strict_instruction _)) advances_none

/-- Comments and instructions. -/
def remarks : Scanner Unit := do let _ ← many remark advances_remark

/-- A text between quotes. -/
def quoted : Scanner (List Char) := do
  let quote ← one isQuote
  let content ← takeWhile (· != quote)
  let _ ← one (· == quote)
  return content

/-- The place of something that is kept elsewhere. -/
def externalId : Scanner Bool := do
  if ← takes "SYSTEM" then
    someSpace
    let _ ← quoted
    return true
  if ← takes "PUBLIC" then
    someSpace
    let _ ← quoted
    someSpace
    let _ ← quoted
    return true
  return false

/-- What an entity stands for, unless it is kept elsewhere. -/
def entityText (general : Bool) : Scanner (Option (List Char)) := do
  if (← rest).head?.any isQuote then return some (← quoted)
  require (← externalId)
  if general then
    spaces
    if ← takes "NDATA" then
      someSpace
      let _ ← plainName
  return none

/-- The declaration of an entity. -/
def entity : Scanner (Option (String × List Char)) := do
  literal "<!ENTITY"
  someSpace
  let general := !(← takes "%")
  if !general then someSpace
  let name ← plainName
  someSpace
  let text ← entityText general
  spaces
  literal ">"
  return text.map fun text => (String.ofList name, text)

/-- A declaration that means nothing here. -/
def otherDeclaration : Scanner Unit := do
  let _ ← takeUntil ">"

/-- Part of the internal subset. -/
inductive SubsetPart where
  | entity (name : String) (text : List Char)
  | other
  | ending

/-- The next part of the internal subset, unless it is over. -/
def subsetPart : Bool → Scanner (Option (SubsetPart × Bool))
  | true => return none
  | false => do
    if ← atEnd then return none
    spaces
    if ← sees "<!ENTITY" then
      match ← entity with
      | some (name, text) => return some (.entity name text, false)
      | none => return some (.other, false)
    if ← sees "<!--" then
      let _ ← comment
      return some (.other, false)
    if ← sees "<?" then
      let _ ← instruction
      return some (.other, false)
    if ← takes "]" then
      spaces
      literal ">"
      return some (.ending, true)
    require ((← sees "<!ELEMENT") || (← sees "<!ATTLIST") || (← sees "<!NOTATION"))
    otherDeclaration
    return some (.other, false)

theorem advances_subsetPart (ended : Bool) : (subsetPart ended).Advances := by
  cases ended with
  | true => exact advances_none
  | false =>
    refine advances_bind _ fun _ => advances_ite advances_none ?_
    refine advances_bind _ fun _ => advances_bind _ fun _ => advances_ite ?_ ?_
    · exact advances_of_strict
        (strict_bind_left (strict_bind_left (strict_literal (by decide)) _) _)
    refine advances_bind _ fun _ => advances_ite ?_ ?_
    · exact advances_of_strict (strict_bind_left strict_comment _)
    refine advances_bind _ fun _ => advances_ite ?_ ?_
    · exact advances_of_strict (strict_bind_left strict_instruction _)
    refine advances_takes (by decide) ?_
    refine advances_of_strict ?_
    refine strict_bind_right _ fun _ => strict_bind_right _ fun _ => strict_bind_right _ fun _ => ?_
    exact strict_bind_right _ fun _ =>
      strict_bind_left (strict_bind_left (strict_takeUntil (by decide)) _) _

def SubsetPart.entity? : SubsetPart → Option (String × List Char)
  | .entity name text => some (name, text)
  | _ => none

/-- The document type and the entities that it declares. -/
def documentType : Scanner Entities := do
  literal "<!DOCTYPE"
  someSpace
  let _ ← plainName
  spaces
  let _ ← externalId
  spaces
  if ← takes ">" then return []
  literal "["
  return (← unfold subsetPart advances_subsetPart false).filterMap SubsetPart.entity?

/-- The start tag of the root and the tokens of its content. -/
def root : Scanner (List Token) := do
  let first ← startTag
  match first with
  | .start _ _ false => return first :: (← content)
  | _ => return [first]

/-- A whole document: its entities and the tokens of its root. -/
def document : Scanner (Entities × List Token) := do
  let _ ← takes "\uFEFF"
  if ← sees "<?xml " then declaration
  remarks
  spaces
  let entities ← if ← sees "<!DOCTYPE" then documentType else pure []
  remarks
  spaces
  let tokens ← root
  remarks
  require (← atEnd)
  return (entities, tokens)

end CartoStyle.Xml.Scanner
