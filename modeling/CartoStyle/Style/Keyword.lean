import CartoStyle.Vocabulary

/-!
# Keywords of symbolizers

The closed choices that a symbolizer names by keyword, and the kinds of symbolizers themselves.
-/

namespace CartoStyle

/-- What a symbolizer draws. -/
inductive SymbolizerKind where
  | fill
  | line
  | mark
  | icon
  | raster
  | text
deriving DecidableEq, Repr

instance : Vocabulary SymbolizerKind where
  all := [.fill, .line, .mark, .icon, .raster, .text]
  keyword
    | .fill => "Fill"
    | .line => "Line"
    | .mark => "Mark"
    | .icon => "Icon"
    | .raster => "Raster"
    | .text => "Text"
  mem_all kind := by cases kind <;> decide
  keyword_injective {a b} := by cases a <;> cases b <;> decide

/-- What a graphic is. -/
inductive GraphicKind where
  | mark
  | icon
deriving DecidableEq, Repr

instance : Vocabulary GraphicKind where
  all := [.mark, .icon]
  keyword
    | .mark => "Mark"
    | .icon => "Icon"
  mem_all kind := by cases kind <;> decide
  keyword_injective {a b} := by cases a <;> cases b <;> decide

/-- How a line ends. -/
inductive LineCap where
  | butt
  | round
  | square
deriving DecidableEq, Repr

instance : Vocabulary LineCap where
  all := [.butt, .round, .square]
  keyword
    | .butt => "butt"
    | .round => "round"
    | .square => "square"
  mem_all cap := by cases cap <;> decide
  keyword_injective {a b} := by cases a <;> cases b <;> decide

/-- How the parts of a line meet. -/
inductive LineJoin where
  | miter
  | round
  | bevel
deriving DecidableEq, Repr

instance : Vocabulary LineJoin where
  all := [.miter, .round, .bevel]
  keyword
    | .miter => "miter"
    | .round => "round"
    | .bevel => "bevel"
  mem_all join := by cases join <;> decide
  keyword_injective {a b} := by cases a <;> cases b <;> decide

/-- How the lines of a label are aligned. -/
inductive Justification where
  | left
  | center
  | right
  | auto
deriving DecidableEq, Repr

instance : Vocabulary Justification where
  all := [.left, .center, .right, .auto]
  keyword
    | .left => "left"
    | .center => "center"
    | .right => "right"
    | .auto => "auto"
  mem_all side := by cases side <;> decide
  keyword_injective {a b} := by cases a <;> cases b <;> decide

/-- How the letters of a label are changed. -/
inductive LetterCase where
  | unchanged
  | uppercase
  | lowercase
  | capitalized
deriving DecidableEq, Repr

instance : Vocabulary LetterCase where
  all := [.unchanged, .uppercase, .lowercase, .capitalized]
  keyword
    | .unchanged => "none"
    | .uppercase => "uppercase"
    | .lowercase => "lowercase"
    | .capitalized => "capitalize"
  mem_all letters := by cases letters <;> decide
  keyword_injective {a b} := by cases a <;> cases b <;> decide

/-- Where a label stands beside its point. -/
inductive Anchor where
  | center
  | left
  | right
  | top
  | bottom
  | topLeft
  | topRight
  | bottomLeft
  | bottomRight
deriving DecidableEq, Repr

instance : Vocabulary Anchor where
  all := [.center, .left, .right, .top, .bottom, .topLeft, .topRight, .bottomLeft, .bottomRight]
  keyword
    | .center => "center"
    | .left => "left"
    | .right => "right"
    | .top => "top"
    | .bottom => "bottom"
    | .topLeft => "top-left"
    | .topRight => "top-right"
    | .bottomLeft => "bottom-left"
    | .bottomRight => "bottom-right"
  mem_all anchor := by cases anchor <;> decide
  keyword_injective {a b} := by cases a <;> cases b <;> decide

end CartoStyle
