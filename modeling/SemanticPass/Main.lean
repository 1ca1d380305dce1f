import SemanticPass.Libraries.Standard
import SemanticPass.Program

/-!
# The executable

The operations on real files, and the command line of the program.
-/

namespace SemanticPass.Main

/-- The file error that a system error stands for. -/
def fileError : IO.Error → FileError
  | .noFileOrDirectory .. => .notFound
  | .alreadyExists .. => .alreadyExists
  | .inappropriateType _ 20 _ => .notDirectory
  | .inappropriateType _ 21 _ => .isDirectory
  | .invalidArgument _ 36 _ => .nameTooLong
  | error => .other (toString error)

/-- The result of an action on a path, with its system error as a file error. -/
def attempt {α : Type} (path : String) (action : IO α) : IO (Except FileError α) := do
  if Path.hasNull path then return .error .nullInPath
  try return .ok (← action) catch error => return .error (fileError error)

/-- Whether a path leads to something for which a test holds. -/
def holds (path : String) (test : IO.FS.Metadata → Bool) : IO Bool := do
  try
    let place ← IO.FS.realPath path
    return test (← place.metadata)
  catch _ => return false

instance : FileAccess IO where
  isFile path := holds path fun data => data.type matches .file
  isDirectory path := holds path fun data => data.type matches .dir
  readBytes path := attempt path (IO.FS.readBinFile path)
  makeDirectory path := attempt path (IO.FS.createDir path)
  writeText path text := attempt path (IO.FS.writeFile path text)

/-- The names of the variables that the program reads. -/
def variableNames : List String := "c_sema_config" :: Setting.all.map Setting.variableName

/-- The variables of the environment that the program reads, in upper case or in lower case. -/
def environment : IO Environment := do
  let names := (variableNames.map fun name => name.map Char.toUpper) ++ variableNames
  let entries ← names.mapM fun name => do
    return (← IO.getEnv name).map fun value => (name, value)
  return entries.filterMap id

end SemanticPass.Main

/-- Runs the program on real files. -/
def main (arguments : List String) : IO UInt32 := do
  let response ← SemanticPass.Program.run .standard arguments
    (← SemanticPass.Main.environment)
  IO.print response.output
  IO.eprint response.complaint
  return response.exitCode
