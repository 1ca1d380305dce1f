import SemanticPass.Files.Path

/-!
# Access to files

What the program asks of a file system, as operations of a monad, so that one definition of the
program runs on real files and on a tree of files that proofs can speak of.
-/

namespace SemanticPass

/-- Why a file operation fails. -/
inductive FileError where
  /-- Nothing has this path. -/
  | notFound
  /-- Something has this path already. -/
  | alreadyExists
  /-- A file stands where a directory is needed. -/
  | notDirectory
  /-- A directory stands where a file is needed. -/
  | isDirectory
  /-- The file holds no text. -/
  | notText
  /-- The path or a name in it is too long. -/
  | nameTooLong
  /-- The path has a null character in it. -/
  | nullInPath
  /-- Anything else, in the words of the system. -/
  | other (message : String)
  deriving DecidableEq, Repr

/-- The words of a file error. -/
def FileError.message : FileError → String
  | .notFound => "No such file or directory (os error 2)"
  | .alreadyExists => "File exists (os error 17)"
  | .notDirectory => "Not a directory (os error 20)"
  | .isDirectory => "Is a directory (os error 21)"
  | .nameTooLong => "File name too long (os error 36)"
  | .notText => "stream did not contain valid UTF-8"
  | .nullInPath => "file name contained an unexpected NUL byte"
  | .other message => message

/-- The operations on files that the program needs. -/
class FileAccess (m : Type → Type) where
  /-- Whether a path leads to a file. -/
  isFile : String → m Bool
  /-- Whether a path leads to a directory. -/
  isDirectory : String → m Bool
  /-- The bytes of the file at a path. -/
  readBytes : String → m (Except FileError ByteArray)
  /-- Makes one directory. -/
  makeDirectory : String → m (Except FileError Unit)
  /-- Writes a text to the file at a path, which is made if need be. -/
  writeText : String → String → m (Except FileError Unit)

namespace FileAccess

variable {m : Type → Type} [Monad m] [FileAccess m]

/-- The text of the file at a path. -/
def readText (path : String) : m (Except FileError String) := do
  match ← readBytes path with
  | .error error => return .error error
  | .ok bytes =>
    match String.fromUTF8? bytes with
    | some text => return .ok text
    | none => return .error .notText

/-- An error stands unless a directory is there all the same. -/
def unlessDirectory (path : String) (error : FileError) : m (Except FileError Unit) := do
  if ← isDirectory path then return .ok () else return .error error

/-- Makes a directory, given as the first of its ancestors, and those of them that are missing. -/
def makeAncestors : List String → m (Except FileError Unit)
  | [] => return .ok ()
  | path :: parents => do
    if path = "" then return .ok ()
    match ← makeDirectory path with
    | .ok () => return .ok ()
    | .error .notFound =>
      match ← makeAncestors parents with
      | .error error => return .error error
      | .ok () =>
        match ← makeDirectory path with
        | .ok () => return .ok ()
        | .error error => unlessDirectory path error
    | .error error => unlessDirectory path error

/-- Makes a directory and the missing directories on the way to it; one that is there will do. -/
def makeDirectories (path : String) : m (Except FileError Unit) :=
  makeAncestors (Path.ancestors path)

end FileAccess

end SemanticPass
