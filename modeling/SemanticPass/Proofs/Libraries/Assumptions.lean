import SemanticPass.Files.Tree
import SemanticPass.Libraries
import SemanticPass.Proofs.Files.Programs

/-!
# What is relied on of the libraries

A statement on the program holds for all libraries that do what is said here, as far as the
statement asks for it: collecting values leaves the files alone, and a setting is read from the
first of its places that has it, one setting after the other.

## Implementation notes

How a command line and a key file are written is the library's affair. What it finds in them is
given by a `Lookup`, which says nothing about a command line that asks for no run, nor about a key
file that is malformed.
-/

namespace SemanticPass

namespace Environment

/-- Whether a variable has a name, in which letters of either case are the same. -/
def isNamed (name : String) (entry : String × String) : Bool :=
  entry.1.map Char.toUpper == name.map Char.toUpper

/-- What the first variable of a name holds. -/
def held? (environment : Environment) (name : String) : Option String :=
  (environment.find? (isNamed name)).map Prod.snd

/-- No two variables are those of one setting. -/
def Unambiguous (environment : Environment) : Prop :=
  ∀ setting : Setting, (environment.filter (isNamed setting.variableName)).length ≤ 1

theorem isNamed_iff {name : String} {entry : String × String} : isNamed name entry = true ↔
    entry.1.toList.map Char.toUpper = name.toList.map Char.toUpper := by
  rw [isNamed, beq_iff_eq, ← String.toList_inj, String.toList_map, String.toList_map]

theorem held?_eq_none_iff {environment : Environment} {name : String} :
    environment.held? name = none ↔ ∀ entry ∈ environment, isNamed name entry = false := by
  simp [held?, List.find?_eq_none]

/-- A variable that is alone of its name is found. -/
theorem held?_eq_some_iff {environment : Environment} {name : String}
    (h : (environment.filter (isNamed name)).length ≤ 1) {value : String} :
    environment.held? name = some value ↔
      ∃ entry ∈ environment, isNamed name entry = true ∧ entry.2 = value := by
  simp only [held?, ← List.head?_filter, ← and_assoc, ← List.mem_filter]
  match environment.filter (isNamed name), h with
  | [], _ => simp
  | [entry], _ => simp
  | _ :: _ :: _, h => simp at h

end Environment

/-- What a library finds in the places of the settings, and how it reads what it finds. -/
structure Lookup where
  /-- The raw values on a command line that parses and asks for a run. -/
  commandLine? : List String → Option (Setting → Option String)
  /-- The raw values in the key file that a command line or an environment names, if it can be read
  and is well formed. If none is named, there are no values. -/
  keyFile? : List String → Environment → FileTree → Option (Setting → Option String)
  /-- Reads a raw value of a setting, or says why it cannot be read. -/
  read : (setting : Setting) → String → Except String setting.Value

namespace Lookup

/-- What a place has for a setting. -/
def held (given : Setting → Option String) (environment : Environment)
    (inFile : Setting → Option String) (setting : Setting) : Place → Option String
  | .commandLine => given setting
  | .environment => environment.held? setting.variableName
  | .keyFile => inFile setting

/-- Reads the raw value that is found for a setting, if there is one. -/
def value (lookup : Lookup) (setting : Setting) : Option String → Except String setting.Value
  | none => .ok setting.default
  | some raw => lookup.read setting raw

end Lookup

namespace Libraries

/-- Collecting values leaves the files alone. -/
def KeepsFiles (libraries : Libraries (StateM FileTree)) : Prop :=
  ∀ arguments environment, FileTree.Within Eq (libraries.collect arguments environment)

/-- The settings are read one after the other, each from the first place that has it in the order in
which its places are declared. -/
def LooksUp (libraries : Libraries (StateM FileTree)) (lookup : Lookup) : Prop :=
  ∀ {arguments : List String} {environment : Environment} {tree : FileTree}
    {given inFile : Setting → Option String}, lookup.commandLine? arguments = some given →
    lookup.keyFile? arguments environment tree = some inFile → environment.Unambiguous →
      (libraries.collect arguments environment tree).1 = .ofReading (Values.read fun setting =>
        lookup.value setting <|
          setting.places.findSome? (Lookup.held given environment inFile setting))

end Libraries

end SemanticPass
