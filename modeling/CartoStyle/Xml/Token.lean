import CartoStyle.Xml.Character
import CartoStyle.Xml.Scanner

/-!
# Tokens of markup

What the content of an element is made of, before references are resolved: tags, texts, and what has
no meaning here (comments and instructions). `content` reads the tokens up to the end tag of an
element that was not opened among them, or up to the end of the text. The text may end in a start
tag.
-/

namespace CartoStyle.Xml

/-- A name with the qualifier before its colon, which is empty where there is none. -/
structure QualifiedName where
  qualifier : String
  name : String
deriving DecidableEq, Inhabited

inductive Token where
  /-- A start tag with the attributes as they are spelled. A closed one is a whole element. -/
  | start (name : QualifiedName) (attributes : List (QualifiedName × List Char)) (closed : Bool)
  /-- A start tag at which the text ends, with the attributes before that. -/
  | unfinished (name : QualifiedName) (attributes : List (QualifiedName × List Char))
  | finish (name : QualifiedName)
  /-- A text with references. -/
  | text (characters : List Char)
  /-- A text in which nothing is markup. -/
  | verbatim (characters : List Char)
  /-- A comment or an instruction. -/
  | silent
deriving DecidableEq, Inhabited

namespace Scanner

def spaces : Scanner Unit := do let _ ← takeWhile Text.isSpace

/-- At least one space. -/
def someSpace : Scanner Unit := do require (!(← takeWhile Text.isSpace).isEmpty)

/-- A name. Colons in it mean nothing. -/
def plainName : Scanner (List Char) := do
  let first ← one isNameStart
  let others ← takeWhile isNameChar
  return first :: others

/-- A word split at its only colon. Each part begins like a name; only the qualifier may be empty.
-/
def qualify? (word : List Char) : Option QualifiedName :=
  let before := word.takeWhile (· != ':')
  let parts := match word.dropWhile (· != ':') with
    | [] => ([], before)
    | _ :: after => (before, after)
  if !parts.2.contains ':' && parts.1.head?.all isNameStart && parts.2.head?.any isNameStart then
    some ⟨String.ofList parts.1, String.ofList parts.2⟩
  else none

def qualifiedName : Scanner QualifiedName := do
  match qualify? (← takeWhile isNameChar) with
  | some name => return name
  | none => fail

/-- Characters that pass a test, none of which may be missing from documents. -/
def documentChars (test : Char → Bool) : Scanner (List Char) := do
  let characters ← takeWhile fun c => isXmlChar c && test c
  match (← rest).head? with
  | some c => require (isXmlChar c)
  | none => pure ()
  return characters

/-- The characters before a word, which must follow; none of them may be missing from documents. -/
def documentCharsUntil (word : String) : Scanner (List Char) := do
  let characters ← takeUntil word
  require (characters.all isXmlChar)
  return characters

def isQuote (c : Char) : Bool := c == '"' || c == '\''

/-- The value of an attribute between its quotes, as it is spelled. -/
def spelledValue : Scanner (List Char) := do
  let quote ← one isQuote
  let value ← documentChars fun c => c != quote && c != '<'
  let _ ← one (· == quote)
  return value

/-- An attribute as it is spelled. -/
def spelledAttribute : Scanner (QualifiedName × List Char) := do
  let name ← qualifiedName
  spaces
  literal "="
  spaces
  return (name, ← spelledValue)

/-- What stands in a start tag after its name. -/
inductive TagPart where
  | attribute (name : QualifiedName) (value : List Char)
  | ending (closed : Bool)

/-- The next part of a start tag, unless the tag is over. Attributes stand after a space. -/
def tagPart : Bool → Scanner (Option (TagPart × Bool))
  | true => return none
  | false => do
    if ← atEnd then return none
    let spaced := !(← takeWhile Text.isSpace).isEmpty
    if ← takes ">" then return some (.ending false, true)
    if ← takes "/" then
      literal ">"
      return some (.ending true, true)
    require spaced
    let (name, value) ← spelledAttribute
    return some (.attribute name value, false)

def TagPart.attribute? : TagPart → Option (QualifiedName × List Char)
  | .attribute name value => some (name, value)
  | .ending _ => none

def TagPart.ending? : TagPart → Option Bool
  | .attribute _ _ => none
  | .ending closed => some closed

theorem strict_spelledAttribute : spelledAttribute.Strict :=
  strict_bind_right _ fun _ => strict_bind_right _ fun _ =>
    strict_bind_left (strict_literal (by decide)) _

theorem advances_tagPart (ended : Bool) : (tagPart ended).Advances := by
  cases ended with
  | true => exact advances_none
  | false =>
    refine advances_bind _ fun _ => advances_ite advances_none ?_
    refine advances_bind _ fun _ => advances_takes (by decide) ?_
    refine advances_takes (by decide) ?_
    refine advances_bind _ fun _ => ?_
    exact advances_of_strict (strict_bind_left strict_spelledAttribute _)

/-- A start tag, which the text may end before its `>`. -/
def startTag : Scanner Token := do
  literal "<"
  let name ← qualifiedName
  let parts ← unfold tagPart advances_tagPart false
  let attributes := parts.filterMap TagPart.attribute?
  return match parts.findSome? TagPart.ending? with
    | some closed => .start name attributes closed
    | none => .unfinished name attributes

/-- An end tag. -/
def endTag : Scanner Token := do
  literal "</"
  let name ← qualifiedName
  spaces
  literal ">"
  return .finish name

/-- A comment. Two hyphens end it, together with the character after them. -/
def comment : Scanner Token := do
  literal "<!--"
  let content ← documentCharsUntil "-->"
  require ((splitAtWord? ['-', '-'] content).isNone && content.getLast? != some '-')
  return .silent

/-- An instruction. One that looks like the first line of a document is refused. -/
def instruction : Scanner Token := do
  require !(← sees "<?xml ")
  literal "<?"
  let _ ← plainName
  let _ ← documentCharsUntil "?>"
  return .silent

def verbatim : Scanner Token := do
  literal "<![CDATA["
  return .verbatim (← documentCharsUntil "]]>")

/-- A text up to the next tag. The end mark of a verbatim text cannot stand in it. -/
def text : Scanner Token := do
  let first ← one fun c => isXmlChar c && c != '<'
  let others ← documentChars (· != '<')
  require (splitAtWord? [']', ']', '>'] (first :: others)).isNone
  return .text (first :: others)

/-- The next token of content. -/
def token : Scanner Token := do
  if !(← sees "<") then text
  else if ← sees "<!--" then comment
  else if ← sees "<!" then verbatim
  else if ← sees "<?" then instruction
  else if ← sees "</" then endTag
  else startTag

theorem strict_token : token.Strict := by
  refine strict_bind_right _ fun _ => strict_ite (strict_bind_left (strict_one _) _) ?_
  refine strict_bind_right _ fun _ =>
    strict_ite (strict_bind_left (strict_literal (by decide)) _) ?_
  refine strict_bind_right _ fun _ =>
    strict_ite (strict_bind_left (strict_literal (by decide)) _) ?_
  refine strict_bind_right _ fun _ => strict_ite ?_ ?_
  · exact strict_bind_right _ fun _ => strict_bind_right _ fun _ =>
      strict_bind_left (strict_literal (by decide)) _
  · exact strict_bind_right _ fun _ => strict_ite (strict_bind_left (strict_literal (by decide)) _)
      (strict_bind_left (strict_literal (by decide)) _)

/-- The number of open elements after a token; none once an element is closed that was open before.
-/
def depthAfter (depth : Nat) : Token → Option Nat
  | .start _ _ false => some (depth + 1)
  | .finish _ => if depth = 0 then none else some (depth - 1)
  | _ => some depth

/-- The next token of content in which some elements are open. -/
def contentStep : Option Nat → Scanner (Option (Token × Option Nat))
  | none => return none
  | some depth => do
    if ← atEnd then return none
    let token ← token
    return some (token, depthAfter depth token)

theorem advances_contentStep : ∀ depth, (contentStep depth).Advances
  | none => advances_none
  | some _ => advances_bind _ fun _ => advances_ite advances_none
      (advances_of_strict (strict_bind_left strict_token _))

/-- The content of an element and its end tag, or all there is if that tag is missing. -/
def content : Scanner (List Token) := unfold contentStep advances_contentStep (some 0)

end Scanner

end CartoStyle.Xml
