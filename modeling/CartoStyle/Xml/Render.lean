import CartoStyle.Xml.Element

/-!
# Writing documents

`Element.document` writes an element with all that is in it. Every tag begins a line of its own,
indented by two spaces for each element around it, except where it follows text: there, a line end
would become part of the text. Names are written as they are; in values and texts the characters of
markup are escaped.
-/

namespace CartoStyle.Xml

/-- The characters that are escaped in texts. -/
def textEscape (c : Char) : List Char :=
  match c with
  | '<' => "&lt;".toList
  | '>' => "&gt;".toList
  | '&' => "&amp;".toList
  | c => [c]

/-- The characters that are escaped in values, which stand between quotes. -/
def valueEscape (c : Char) : List Char :=
  match c with
  | '\'' => "&apos;".toList
  | '"' => "&quot;".toList
  | c => textEscape c

/-- The line end and the indentation before a tag. -/
def lineBreak (depth : Nat) : List Char := '\n' :: List.replicate (2 * depth) ' '

/-- The attributes in a tag, each after a space. -/
def attributeChars (attributes : Attributes) : List Char :=
  attributes.entries.flatMap fun (name, value) =>
    ' ' :: name.toList ++ '=' :: '"' :: value.shown.toList.flatMap valueEscape ++ ['"']

mutual

/-- An element from its first tag to its last. An element with neither text nor children is one tag.
-/
def Element.chars (depth : Nat) : Element → List Char
  | ⟨name, attributes, text, children⟩ =>
    let opening := '<' :: name.toList ++ attributeChars attributes
    if text.isNone && children.isEmpty then opening ++ ['/', '>']
    else
      opening ++ '>' :: (text.getD "").toList.flatMap textEscape ++
        siblingChars (depth + 1) text.isNone children ++
        (if children.isEmpty then [] else lineBreak depth) ++
        '<' :: '/' :: name.toList ++ ['>']

/-- Elements one after another, the first on a line of its own if `fresh`. -/
def siblingChars (depth : Nat) (fresh : Bool) : List Element → List Char
  | [] => []
  | first :: others =>
    (if fresh then lineBreak depth else []) ++ first.chars depth ++ siblingChars depth true others

end

/-- The first line of every document. -/
def declaration : String := "<?xml version=\"1.0\" encoding=\"utf-8\"?>"

/-- The document with an element as its root. -/
def Element.document (root : Element) : String :=
  String.ofList (declaration.toList ++ lineBreak 0 ++ root.chars 0 ++ ['\n'])

end CartoStyle.Xml
