import CartoStyle.Json.Codec
import CartoStyle.Stylesheet.Glyph
import CartoStyle.Stylesheet.Traced
import CartoStyle.Xml.Element

/-!
# Output options

Whoever writes a stylesheet may choose whether a map is put around the style, which attributes are
added to elements of certain names, and where the glyphs lie. `Options.overlay` adds the attributes.
An attribute that an element has already is kept as it is.
-/

namespace CartoStyle.Stylesheet

open Xml (AttrValue Attributes Element)

structure Options where
  includeMapContainer : Bool := true
  mapOptions : Attributes := .empty
  styleOptions : Attributes := .empty
  symbolizerOptions : Dictionary DrawingTag Attributes := .empty
  /-- The directory of the glyphs. -/
  glyphBasePath : Option String := none
deriving DecidableEq, Inhabited

namespace Options

def glyphs (options : Options) : Glyphs := ⟨options.glyphBasePath⟩

/-- The attributes for elements of a name. -/
def configured (options : Options) (name : String) : Attributes :=
  if name = mapTag then options.mapOptions
  else if name = styleTag then options.styleOptions
  else match (Vocabulary.ofKeyword? name : Option DrawingTag) with
    | some tag => (options.symbolizerOptions.get? tag).getD .empty
    | none => .empty

mutual

/-- An element with the configured attributes added, to it and to all elements in it. -/
def overlay (options : Options) : Element → Element
  | ⟨name, attributes, text, children⟩ =>
    ⟨name, attributes.addMissing (options.configured name).entries, text,
      overlayAll options children⟩

/-- Elements with the configured attributes added. -/
def overlayAll (options : Options) : List Element → List Element
  | [] => []
  | element :: others => overlay options element :: overlayAll options others

end

mutual

/-- A note for each configured attribute that an element, or one in it, has already. -/
def keptNotes (options : Options) : Element → List Note
  | ⟨name, attributes, _, children⟩ =>
    ((options.configured name).keys.filter attributes.contains).map (Note.keptComputed name) ++
      keptNotesAll options children

/-- The notes for several elements. -/
def keptNotesAll (options : Options) : List Element → List Note
  | [] => []
  | element :: others => keptNotes options element ++ keptNotesAll options others

end

end Options

/-! ## Options in JSON -/

section Json

open CartoStyle.Json

/-- A configured value in JSON. -/
def valueToJson : AttrValue → Value
  | .text value => .string value
  | .number value => .number (.fraction value)
  | .flag value => .bool value

/-- A configured value from JSON. -/
def valueOfJson : Value → Except Mismatch AttrValue
  | .bool value => .ok (.flag value)
  | .number value => .ok (.number value.value)
  | .string value => .ok (.text value)
  | _ => .error (.noAlternative "OptionValue")

def valueOfDraft (levels : Nat) (draft : Draft) : Except Json.Problem AttrValue := do
  let value ← draft.complete levels
  liftMismatch (valueOfJson value)

/-- Attributes from JSON. Of a repeated name the first place and the last value count. -/
def attributesOfDraft (levels : Nat) (draft : Draft) : Except Json.Problem Attributes :=
  (draft.map pure valueOfDraft levels).map .ofList

def attributesToJson (attributes : Attributes) : Value :=
  .object (attributes.entries.map fun (name, value) => (name, valueToJson value))

/-- Another name of an element that draws. -/
def drawingAlias : String × DrawingTag := ("IconSymbolizer", .markers)

/-- The names of elements that draw: the other name stands before the proper one. -/
def drawingNames : List String :=
  (Vocabulary.all : List DrawingTag).flatMap fun tag =>
    if tag = drawingAlias.2 then [drawingAlias.1, keyword tag] else [keyword tag]

/-- The element that draws by one of its names. -/
def drawingOfName (name : String) : Except Json.Problem DrawingTag :=
  if name = drawingAlias.1 then .ok drawingAlias.2
  else match (Vocabulary.ofKeyword? name : Option DrawingTag) with
    | some tag => .ok tag
    | none => .error (.mismatch (.unknownVariant name drawingNames))

namespace Options

def fields : List (Json.Field Options) := [
  ⟨"includeMapContainer", ["includeMap"], fun _ draft options =>
    draft.flag.map fun v => { options with includeMapContainer := v }⟩,
  ⟨"mapOptions", ["map"], fun levels draft options =>
    (attributesOfDraft levels draft).map fun v => { options with mapOptions := v }⟩,
  ⟨"styleOptions", ["style"], fun levels draft options =>
    (attributesOfDraft levels draft).map fun v => { options with styleOptions := v }⟩,
  ⟨"symbolizerOptions", ["symbolizers"], fun levels draft options =>
    (draft.map drawingOfName attributesOfDraft levels).map fun v =>
      { options with symbolizerOptions := .ofList v }⟩,
  ⟨"glyphBasePath", ["wellKnownBasePath"], fun _ draft options =>
    (draft.optional Draft.text).map fun v => { options with glyphBasePath := v }⟩]

def ofDraft : Nat → Draft → Except Json.Problem Options := Draft.record "OutputOptions" fields {}

/-- The options that a JSON document holds. -/
def ofJsonText (text : String) : Except Json.Problem Options := decode ofDraft text

def toJson (options : Options) : Value :=
  .object ([
    ("includeMapContainer", .bool options.includeMapContainer),
    ("mapOptions", attributesToJson options.mapOptions),
    ("styleOptions", attributesToJson options.styleOptions),
    ("symbolizerOptions", .object (options.symbolizerOptions.entries.map fun (tag, attributes) =>
      (keyword tag, attributesToJson attributes)))] ++
    options.glyphBasePath.toList.map fun directory => ("glyphBasePath", .string directory))

end Options

end Json

end CartoStyle.Stylesheet
