import CartoStyle.FileStore
import CartoStyle.Style.Json
import CartoStyle.Stylesheet.Document

/-!
# Conversion of documents

A style in JSON becomes a stylesheet, or a stylesheet becomes a style in JSON. With files,
everything is read before anything is written, so a conversion that fails leaves all files as they
were.
-/

namespace CartoStyle

inductive Direction where
  /-- From a style in JSON to a stylesheet. -/
  | write
  /-- From a stylesheet to a style in JSON. -/
  | read
deriving DecidableEq, Repr

/-- Why a conversion failed. -/
inductive ConversionProblem where
  | file (path : String) (cause : FileProblem)
  | style (cause : Json.Problem)
  | options (path : String) (cause : Json.Problem)
  | stylesheet (cause : Stylesheet.Problem)
deriving DecidableEq

def ConversionProblem.message : ConversionProblem → String
  | .file path cause => s!"I/O error on '{path}': {cause.message}"
  | .style cause => s!"invalid style JSON: {cause.message}"
  | .options path cause => s!"invalid output options in '{path}': {cause.message}"
  | .stylesheet cause => cause.message

/-- The stylesheet of a style in JSON. -/
def writeStylesheet (options : Stylesheet.Options) (source : String) :
    Except ConversionProblem String := do
  let style ← (Style.ofJsonText source).mapError .style
  (style.toXml options).result.mapError .stylesheet

/-- The style of a stylesheet in JSON. -/
def readStylesheet (source : String) : Except ConversionProblem String := do
  let style ← (Style.ofXml source).result.mapError .stylesheet
  return style.jsonText

/-- The other form of a document. Options are for stylesheets that are written. -/
def convert (direction : Direction) (options : Stylesheet.Options) (source : String) :
    Except ConversionProblem String :=
  match direction with
  | .write => writeStylesheet options source
  | .read => readStylesheet source

section Files

variable {m : Type → Type} [Monad m]

/-- The options in a file. -/
def loadOptions (files : FileAccess m) (path : String) :
    m (Except ConversionProblem Stylesheet.Options) := do
  match ← files.read path with
  | .error cause => return .error (.file path cause)
  | .ok source => return (Stylesheet.Options.ofJsonText source).mapError (.options path)

/-- Converts a file. The result is also put into another file, if one is given. -/
def convertFile (files : FileAccess m) (direction : Direction) (input : String)
    (output : Option String) (options : Stylesheet.Options) :
    m (Except ConversionProblem String) := do
  match ← files.read input with
  | .error cause => return .error (.file input cause)
  | .ok source =>
    match convert direction options source with
    | .error problem => return .error problem
    | .ok converted =>
      match output with
      | none => return .ok converted
      | some path =>
        match ← files.write path converted with
        | .error cause => return .error (.file path cause)
        | .ok () => return .ok converted

end Files

end CartoStyle
