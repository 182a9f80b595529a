import CartoStyle.Conversion

/-!
# The command line

`mapstyle write INPUT` turns a style in JSON into a stylesheet, `mapstyle read INPUT` does the
reverse. Both take `--output`, and writing takes options besides. An option is given once; its value
follows it or is attached to it. A value of its own does not look like an option, and after `--`
nothing does.
-/

namespace CartoStyle

/-- What a command line asks for. -/
structure Command where
  direction : Direction
  input : String
  /-- The file for the result, in the place of standard output. -/
  output : Option String := none
  /-- The file with the options for stylesheets. -/
  config : Option String := none
  noMap : Bool := false
  glyphBasePath : Option String := none
deriving DecidableEq

namespace Command

/-- The options of a command. -/
inductive Switch where
  | output
  | config
  | noMap
  | glyphBasePath
deriving DecidableEq

namespace Switch

/-- The option with a long name. -/
def ofName? (direction : Direction) (name : String) : Option Switch :=
  match direction, name with
  | _, "output" => some .output
  | .write, "config" => some .config
  | .write, "no-map" => some .noMap
  | .write, "glyph-base-path" => some .glyphBasePath
  | _, _ => none

/-- Whether an option has a value. -/
def takesValue : Switch → Bool
  | .noMap => false
  | _ => true

/-- Whether the value of an option may be empty. -/
def allowsEmpty : Switch → Bool
  | .glyphBasePath => true
  | _ => false

end Switch

/-- An argument by its form. -/
inductive Argument where
  /-- What ends the options. -/
  | terminator
  | long (name : String) (attached : Option String)
  /-- A letter with what is attached to it. -/
  | short (letter : Char) (attached : List Char)
  | plain (text : String)
deriving DecidableEq

/-- The part of a text before its first equals sign, and the part after it if there is one. -/
def splitAtEquals (text : List Char) : List Char × Option (List Char) :=
  (text.takeWhile (· != '='),
    match text.dropWhile (· != '=') with
    | [] => none
    | _ :: after => some after)

def Argument.ofText (text : String) : Argument :=
  match text.toList with
  | ['-', '-'] => .terminator
  | '-' :: '-' :: rest =>
    let (name, attached) := splitAtEquals rest
    .long (String.ofList name) (attached.map String.ofList)
  | '-' :: letter :: rest => .short letter rest
  | _ => .plain text

/-- What has been read of a command. -/
structure Reading where
  positional : List String := []
  given : List Switch := []
  values : List (Switch × String) := []

namespace Reading

/-- Takes an option into account, which may not be given twice. -/
def give? (reading : Reading) (switch : Switch) : Option Reading :=
  if reading.given.contains switch then none
  else some { reading with given := switch :: reading.given }

/-- Takes an option with its value into account. -/
def giveValue? (reading : Reading) (switch : Switch) (value : String) : Option Reading := do
  if value.isEmpty && !switch.allowsEmpty then none
  let reading ← reading.give? switch
  return { reading with values := (switch, value) :: reading.values }

/-- Takes an argument that is no option into account. -/
def addPositional (reading : Reading) (text : String) : Reading :=
  { reading with positional := reading.positional ++ [text] }

end Reading

/-- Reads the arguments after the name of a command. -/
def readArguments (direction : Direction) : Reading → List String → Option Reading
  | reading, [] => some reading
  | reading, text :: others =>
    match Argument.ofText text with
    | .terminator => some (others.foldl Reading.addPositional reading)
    | .plain text => readArguments direction (reading.addPositional text) others
    | .long name attached =>
      match Switch.ofName? direction name, attached with
      | none, _ => none
      | some switch, some value =>
        if switch.takesValue then do
          readArguments direction (← reading.giveValue? switch value) others
        else none
      | some switch, none =>
        if switch.takesValue then separateValue switch reading others
        else do readArguments direction (← reading.give? switch) others
    | .short 'o' [] => separateValue .output reading others
    | .short 'o' attached => do
      let value := match attached with
        | '=' :: value => value
        | value => value
      readArguments direction (← reading.giveValue? .output (String.ofList value)) others
    | .short _ _ => none
where
  /-- Reads the value of an option from the next argument, and the rest. -/
  separateValue (switch : Switch) (reading : Reading) : List String → Option Reading
    | [] => none
    | value :: others =>
      match Argument.ofText value with
      | .plain value => do readArguments direction (← reading.giveValue? switch value) others
      | _ => none

/-- The direction that a command is named for. -/
def direction? (name : String) : Option Direction :=
  match name with
  | "write" => some .write
  | "read" => some .read
  | _ => none

/-- The command that some arguments give, if they are in order. -/
def ofArguments? : List String → Option Command
  | [] => none
  | name :: arguments => do
    let direction ← direction? name
    let reading ← readArguments direction {} arguments
    match reading.positional with
    | [input] =>
      if input.isEmpty then none
      else some {
        direction, input
        output := reading.values.lookup .output
        config := reading.values.lookup .config
        noMap := reading.given.contains .noMap
        glyphBasePath := reading.values.lookup .glyphBasePath }
    | _ => none

/-! ## Running a command -/

/-- Options with what the command line says in addition. -/
def adjust (command : Command) (options : Stylesheet.Options) : Stylesheet.Options where
  includeMapContainer := options.includeMapContainer && !command.noMap
  mapOptions := options.mapOptions
  styleOptions := options.styleOptions
  symbolizerOptions := options.symbolizerOptions
  glyphBasePath := command.glyphBasePath.or options.glyphBasePath

/-- What a command leaves behind, files apart. -/
structure Outcome where
  exitCode : UInt32
  standardOutput : String := ""
  standardError : String := ""
deriving DecidableEq

/-- A text with a line end. -/
def withLineEnd (text : String) : String := if text.endsWith "\n" then text else text ++ "\n"

/-- The outcome of a conversion. The result is printed unless it went into a file. -/
def outcome (command : Command) : Except ConversionProblem String → Outcome
  | .ok converted =>
    { exitCode := 0, standardOutput := if command.output.isSome then "" else withLineEnd converted }
  | .error problem => { exitCode := 1, standardError := s!"error: {problem.message}\n" }

/-- The outcome of arguments that are not in order. -/
def usage : Outcome where
  exitCode := 2
  standardError := "usage: mapstyle <write|read> [OPTIONS] <INPUT>\n"

variable {m : Type → Type} [Monad m]

/-- The options for a command. -/
def options (files : FileAccess m) (command : Command) :
    m (Except ConversionProblem Stylesheet.Options) := do
  match command.config with
  | none => return .ok (command.adjust {})
  | some path => return (← loadOptions files path).map command.adjust

/-- Runs a command. -/
def run (files : FileAccess m) (command : Command) : m Outcome := do
  match ← command.options files with
  | .error problem => return command.outcome (.error problem)
  | .ok options =>
    return command.outcome
      (← convertFile files command.direction command.input command.output options)

/-- Runs the command that some arguments give. -/
def runArguments (files : FileAccess m) (arguments : List String) : m Outcome :=
  match ofArguments? arguments with
  | none => return usage
  | some command => command.run files

end Command

end CartoStyle
