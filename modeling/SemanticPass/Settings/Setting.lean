/-!
# What can be set

The five settings of the program, and what is declared about each: its name, its letter on the
command line, the places it is taken from, and the value it has if none of them gives it one. The
command line has one option more, which is the path of a key file.
-/

namespace SemanticPass

/-- Where a setting can be given. -/
inductive Place where
  | commandLine
  | environment
  | keyFile
  deriving DecidableEq, Repr

/-- Something that can be set. -/
inductive Setting where
  | trace
  | sourceName
  | outputDir
  | logLevel
  | noTables
  deriving DecidableEq, Repr

namespace Setting

/-- Every setting, in the order of declaration. -/
def all : List Setting := [.trace, .sourceName, .outputDir, .logLevel, .noTables]

/-- What a setting is called, in all places. -/
def name : Setting → String
  | .trace => "trace"
  | .sourceName => "source_name"
  | .outputDir => "output_dir"
  | .logLevel => "log_level"
  | .noTables => "no_tables"

/-- The environment variable of a setting. -/
def variableName (setting : Setting) : String := "c_sema_" ++ setting.name

/-- The letter that is short for a setting on the command line, if it has one. -/
def letter? : Setting → Option Char
  | .trace => some 't'
  | .sourceName => some 's'
  | .outputDir => some 'o'
  | .logLevel => some 'l'
  | .noTables => none

/-- The places that a setting is taken from, of which the first one that has it counts. -/
def places : Setting → List Place
  | .trace | .sourceName | .outputDir | .logLevel | .noTables =>
    [.commandLine, .environment, .keyFile]

/-- What a setting is set to: a truth value, or a text unless there is none. -/
abbrev Value : Setting → Type
  | .trace | .sourceName | .outputDir | .logLevel => Option String
  | .noTables => Bool

/-- What a setting is set to that no place has. -/
def default : (setting : Setting) → setting.Value
  | .trace | .sourceName | .outputDir | .logLevel => none
  | .noTables => false

end Setting

/-- What every setting is set to. -/
structure Values where
  /-- The path of the trace. -/
  trace : Option String
  /-- The name of the analysed source. -/
  sourceName : Option String
  /-- The directory for the listings. -/
  outputDir : Option String
  /-- The name of a log level. -/
  logLevel : Option String
  /-- Whether the listings are left out. -/
  noTables : Bool
  deriving DecidableEq, Repr

namespace Values

/-- What one setting is set to. -/
def get (values : Values) : (setting : Setting) → setting.Value
  | .trace => values.trace
  | .sourceName => values.sourceName
  | .outputDir => values.outputDir
  | .logLevel => values.logLevel
  | .noTables => values.noTables

/-- Reads the settings one after the other, in the order of declaration, until one of them cannot be
read. -/
def read {ε : Type} (reading : (setting : Setting) → Except ε setting.Value) :
    Except ε Values := do
  let trace ← reading .trace
  let sourceName ← reading .sourceName
  let outputDir ← reading .outputDir
  let logLevel ← reading .logLevel
  let noTables ← reading .noTables
  return { trace, sourceName, outputDir, logLevel, noTables }

end Values

/-- An option of the command line. -/
inductive CommandOption where
  /-- The path of the key file. -/
  | config
  /-- A value for a setting. -/
  | forSetting (setting : Setting)
  deriving DecidableEq, Repr

namespace CommandOption

/-- Every option. -/
def all : List CommandOption := .config :: Setting.all.map .forSetting

/-- The long name of an option. -/
def name : CommandOption → String
  | .config => "config"
  | .forSetting setting => setting.name

/-- The letter that is short for an option, if it has one. -/
def letter? : CommandOption → Option Char
  | .config => some 'c'
  | .forSetting setting => setting.letter?

/-- The option of a long name. -/
def ofName? (name : String) : Option CommandOption := all.find? fun o => o.name == name

/-- The option of a letter. -/
def ofLetter? (letter : Char) : Option CommandOption := all.find? fun o => o.letter? == some letter

end CommandOption

end SemanticPass
