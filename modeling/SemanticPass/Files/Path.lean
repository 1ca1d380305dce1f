/-!
# Paths as text

A path is a text of names separated by slashes. The functions here work on that text alone and
never look at a file: they split a path, find the name of the file it ends with, the directory
before it, and the path of a file in a directory. A name `.` and a repeated slash are passed over.
-/

namespace SemanticPass.Path

/-- Whether a path starts at the root. -/
def isAbsolute (path : String) : Bool := path.toList.head? == some '/'

/-- Whether a path ends with a slash. -/
def hasTrailingSlash (path : String) : Bool := path.toList.getLast? == some '/'

/-- Whether a path has a null character in it, which no path of a file may have. -/
def hasNull (path : String) : Bool := path.toList.contains '\x00'

/-- The greatest number of bytes of a path. -/
def maxLength : Nat := 4095

/-- The greatest number of bytes of a name. -/
def maxNameLength : Nat := 255

/-- The names between the slashes of a path, without the empty ones. -/
def names (path : String) : List String :=
  ((path.toList.splitOn '/').map String.ofList).filter (· ≠ "")

/-- The names of a path, of which only a leading `.` is kept as the name of a directory. -/
def steps (path : String) : List String :=
  match names path with
  | [] => []
  | name :: rest =>
    let rest := rest.filter (· ≠ ".")
    if name = "." && isAbsolute path then rest else name :: rest

/-- The path of some steps. -/
def ofSteps (absolute : Bool) (steps : List String) : String :=
  (if absolute then "/" else "") ++ "/".intercalate steps

/-- A path and all the directories on the way to it, the path as given first. The relative ones
end with the empty path, which is the working directory. -/
def ancestors (path : String) : List String :=
  let steps := steps path
  path :: (List.range steps.length).reverse.map fun n => ofSteps (isAbsolute path) (steps.take n)

/-- The name of the file that a path ends with, unless that is no name of a file. -/
def fileName? (path : String) : Option String :=
  (steps path).getLast?.filter fun name => name ≠ "." && name ≠ ".."

/-- A file name without its extension, which is what follows the last dot; a dot that the name
starts with begins no extension. -/
def withoutExtension (name : String) : String :=
  let chars := name.toList.reverse
  match chars.dropWhile (· ≠ '.') with
  | [] | ['.'] => name
  | _ :: stem => String.ofList stem.reverse

/-- The name of the file that a path ends with, without its extension. -/
def fileStem? (path : String) : Option String := (fileName? path).map withoutExtension

/-- The path with an extension put after its file name; a path without one stays as it is. -/
def addExtension (path extension : String) : String :=
  match fileName? path with
  | none => path
  | some name =>
    ofSteps (isAbsolute path) ((steps path).dropLast ++ [name ++ "." ++ extension])

/-- The path of a file in a directory. -/
def inDirectory (directory file : String) : String :=
  if directory = "" || hasTrailingSlash directory then directory ++ file
  else directory ++ "/" ++ file

end SemanticPass.Path
