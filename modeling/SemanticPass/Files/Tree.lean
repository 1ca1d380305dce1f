import SemanticPass.Files.Access

/-!
# File trees

A file tree is a finite set of files and directories with a working directory among them. A path
is followed name by name, and everything before its last name has to be a directory; `..` goes
to the directory above, which at the root is the root itself.
-/

namespace SemanticPass

/-- The names that lead to an entry from the root. -/
abbrev Location := List String

/-- What a location holds. -/
inductive Entry where
  | directory
  | file (bytes : ByteArray)

/-- Files and directories, with the directory that relative paths start from. -/
structure FileTree where
  /-- The working directory. -/
  home : Location := []
  /-- The entries below the root. -/
  entries : List (Location × Entry) := []

namespace FileTree

/-- What a location holds; the root is a directory. -/
def held? (tree : FileTree) (location : Location) : Option Entry :=
  if location = [] then some .directory else tree.entries.lookup location

/-- Puts an entry at a location, in place of the one that may be there. -/
def put (tree : FileTree) (location : Location) (entry : Entry) : FileTree :=
  if (tree.entries.lookup location).isSome then
    { tree with entries := tree.entries.map fun old =>
        if old.1 = location then (location, entry) else old }
  else { tree with entries := tree.entries ++ [(location, entry)] }

/-- The location that a name leads to from a directory. -/
def stepFrom (location : Location) (name : String) : Location :=
  if name = "." then location
  else if name = ".." then location.dropLast
  else location ++ [name]

/-- The location that names lead to, one after the other, if each is looked up in a directory. -/
def walk (tree : FileTree) : Location → List String → Except FileError Location
  | location, [] => .ok location
  | location, name :: names =>
    match tree.held? location with
    | none => .error .notFound
    | some (.file _) => .error .notDirectory
    | some .directory =>
      if name.utf8ByteSize > Path.maxNameLength then .error .nameTooLong
      else tree.walk (stepFrom location name) names

/-- The location that a path leads to, whether or not anything is there. -/
def follow (tree : FileTree) (path : String) (names : List String) : Except FileError Location :=
  if Path.hasNull path then .error .nullInPath
  else if path.utf8ByteSize > Path.maxLength then .error .nameTooLong
  else if path = "" then .error .notFound
  else tree.walk (if Path.isAbsolute path then [] else tree.home) names

/-- What a path leads to; after a trailing slash it has to be a directory. -/
def at? (tree : FileTree) (path : String) : Except FileError (Location × Entry) := do
  let names := Path.names path ++ if Path.hasTrailingSlash path then ["."] else []
  let location ← tree.follow path names
  match tree.held? location with
  | none => .error .notFound
  | some entry => .ok (location, entry)

/-- Whether a path leads to a file. -/
def isFile (tree : FileTree) (path : String) : Bool :=
  match tree.at? path with
  | .ok (_, .file _) => true
  | _ => false

/-- Whether a path leads to a directory. -/
def isDirectory (tree : FileTree) (path : String) : Bool :=
  match tree.at? path with
  | .ok (_, .directory) => true
  | _ => false

/-- The bytes of the file at a path. -/
def readBytes (tree : FileTree) (path : String) : Except FileError ByteArray :=
  match tree.at? path with
  | .ok (_, .file bytes) => .ok bytes
  | .ok (_, .directory) => .error .isDirectory
  | .error error => .error error

/-- Makes one directory where nothing is. -/
def makeDirectory (tree : FileTree) (path : String) : Except FileError FileTree := do
  let location ← tree.follow path (Path.names path)
  match tree.held? location with
  | some _ => .error .alreadyExists
  | none => .ok (tree.put location .directory)

/-- Writes a text to the file at a path, which is made if nothing is there. -/
def writeText (tree : FileTree) (path text : String) : Except FileError FileTree := do
  let location ← tree.follow path (Path.names path)
  match tree.held? location with
  | some .directory => .error .isDirectory
  | _ => .ok (tree.put location (.file text.toUTF8))

/-- The tree after an operation, which stays as it was if the operation failed. -/
def settle (tree : FileTree) (result : Except FileError FileTree) :
    Except FileError Unit × FileTree :=
  match result with
  | .ok tree => (.ok (), tree)
  | .error error => (.error error, tree)

instance : FileAccess (StateM FileTree) where
  isFile path := fun tree => (tree.isFile path, tree)
  isDirectory path := fun tree => (tree.isDirectory path, tree)
  readBytes path := fun tree => (tree.readBytes path, tree)
  makeDirectory path := fun tree => tree.settle (tree.makeDirectory path)
  writeText path text := fun tree => tree.settle (tree.writeText path text)

end FileTree

end SemanticPass
