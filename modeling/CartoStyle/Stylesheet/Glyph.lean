import CartoStyle.Stylesheet.Problem

/-!
# Glyphs

A mark with a well-known name is drawn by an image, its glyph. The glyphs lie in one directory,
which the one who writes a stylesheet may choose; the one who reads it looks at the last part of a
path only. No two glyphs have the same name or the same file, so a path that was written for a name
leads back to it.
-/

namespace CartoStyle.Stylesheet

/-- The names of marks with the files of their glyphs. -/
def glyphFiles : List (String × String) := [
  ("X", "x.svg"),
  ("Cross", "cross.svg"),
  ("Square", "square.svg"),
  ("Star", "star.svg"),
  ("Triangle", "triangle.svg"),
  ("shape://backslash", "shape-backslash.svg"),
  ("shape://carrow", "shape-carrow.svg"),
  ("shape://dot", "shape-dot.svg"),
  ("shape://horline", "shape-horline.svg"),
  ("shape://oarrow", "shape-oarrow.svg"),
  ("shape://plus", "shape-plus.svg"),
  ("shape://slash", "shape-slash.svg"),
  ("shape://times", "shape-times.svg"),
  ("shape://vertline", "shape-vertline.svg")]

/-- The file of the glyph of a mark. -/
def glyphFile? (name : String) : Option String := glyphFiles.lookup name

/-- The mark whose glyph is a file. -/
def markOfFile? (file : String) : Option String :=
  (glyphFiles.find? fun glyph => glyph.2 = file).map Prod.fst

/-- A character between the parts of a path. -/
def isPathSeparator (c : Char) : Bool := c == '/' || c == '\\'

/-- The last part of a path. -/
def lastPart (path : List Char) : List Char :=
  (path.reverse.takeWhile fun c => !isPathSeparator c).reverse

/-- The mark whose glyph a path points at. -/
def markOfPath? (path : String) : Option String :=
  markOfFile? (String.ofList (lastPart path.toList))

/-- The directory of the glyphs, if one is given. -/
structure Glyphs where
  directory : Option String := none
deriving DecidableEq, Inhabited

namespace Glyphs

/-- A file in the directory of the glyphs. Slashes at the end of the directory do not count. -/
def path (glyphs : Glyphs) (file : String) : String :=
  match glyphs.directory with
  | none => file
  | some directory =>
    if directory.toList.isEmpty then file
    else
      let trimmed := (directory.toList.reverse.dropWhile (· == '/')).reverse
      String.ofList (trimmed ++ '/' :: file.toList)

/-- The path of the glyph of a mark. -/
def resolve (glyphs : Glyphs) (name : String) : Except Problem String :=
  match glyphFile? name with
  | some file => .ok (glyphs.path file)
  | none => .error (.unsupportedSymbol name)

end Glyphs

end CartoStyle.Stylesheet
