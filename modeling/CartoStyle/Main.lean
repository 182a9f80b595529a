import CartoStyle.CommandLine

/-!
# The program `mapstyle`

Runs a command on the files of the system.
-/

namespace CartoStyle

/-- The cause of a failure of the system. -/
def FileProblem.ofSystem (cause : IO.Error) : FileProblem :=
  match cause with
  | .noFileOrDirectory .. => .notFound
  | .inappropriateType _ code _ => if code = 21 then .isADirectory else .notADirectory
  | cause => .other (toString cause)

/-- The files of the system. -/
def systemFiles : FileAccess IO where
  read path := do
    match ← (IO.FS.readBinFile path).toBaseIO with
    | .ok content => return decodeText content
    | .error cause => return .error (.ofSystem cause)
  write path text := do
    match ← (IO.FS.writeBinFile path text.toUTF8).toBaseIO with
    | .ok () => return .ok ()
    | .error cause => return .error (.ofSystem cause)

end CartoStyle

def main (arguments : List String) : IO UInt32 := do
  let outcome ← CartoStyle.Command.runArguments CartoStyle.systemFiles arguments
  IO.print outcome.standardOutput
  IO.eprint outcome.standardError
  return outcome.exitCode
