import CartoStyle.Stylesheet.Options
import CartoStyle.Stylesheet.Rule
import CartoStyle.Xml.Render
import CartoStyle.Xml.Tree

/-!
# Stylesheets

A style is written as an element that holds its rules, within a map unless the options say
otherwise; configured attributes are added last. What is read is a style, or the first style of a
map. `Style.toXml` and `Style.ofXml` go all the way to the text of a document.
-/

namespace CartoStyle.Style

open Stylesheet
open Xml (Element)

/-! ## Writing -/

/-- The elements of rules; a problem tells the place of its rule, counted from `index`. -/
def ruleElements (glyphs : Glyphs) (index : Nat) : List Rule → Except Problem (List Element)
  | [] => .ok []
  | rule :: others => do
    let first ← (rule.element glyphs).mapError (.inRule index rule.name)
    let rest ← ruleElements glyphs (index + 1) others
    return first :: rest

/-- The element of a style itself. A style without a name has no attribute for it. -/
def styleElement (glyphs : Glyphs) (style : Style) : Except Problem Element := do
  let children ← ruleElements glyphs 0 style.rules
  return {
    name := styleTag
    attributes := if style.name = "" then .empty
      else Dictionary.empty.insert nameAttribute (.text style.name)
    children }

/-- The root of the stylesheet of a style. -/
def element (options : Options) (style : Style) : Traced Element := do
  let inner ← .ofExcept (styleElement options.glyphs style)
  .note (.built style.name inner.children.length)
  let root := if options.includeMapContainer then { name := mapTag, children := [inner] } else inner
  .noteAll (options.keptNotes root)
  return options.overlay root

/-- The document of a style. -/
def toXml (options : Options) (style : Style) : Traced String := do
  return (← style.element options).document

/-! ## Reading -/

/-- The rules among the children of a style, counted from `index`. -/
def rulesOf (index : Nat) : List Element → Traced (List Rule)
  | [] => pure []
  | child :: others => do
    if child.name = ruleTag then
      let rule ← (Rule.ofElement child).mapProblem
        (.inRule index (child.attributeText? nameAttribute))
      let rules ← rulesOf (index + 1) others
      return rule :: rules
    else
      .note (.skippedElement child.name)
      rulesOf index others

/-- The element of the style that a root is or holds. -/
def find (root : Element) : Traced Element :=
  if root.name = mapTag then
    match root.childrenNamed styleTag with
    | [] => .ofExcept (.error (.missingElement styleTag))
    | [only] => pure only
    | first :: others => do
      .note (.moreStyles others.length)
      return first
  else if root.name = styleTag then pure root
  else .ofExcept (.error (.unrecognizedElement root.name))

/-- The style of a stylesheet with a given root. -/
def ofElement (root : Element) : Traced Style := do
  let element ← find root
  let rules ← rulesOf 0 element.children
  let name := (element.attributeText? nameAttribute).getD ""
  .note (.read name rules.length)
  return { name, rules }

/-- The style of a document. -/
def ofXml (text : String) : Traced Style :=
  match Element.ofText? text with
  | some root => ofElement root
  | none => .ofExcept (.error .markup)

end CartoStyle.Style
