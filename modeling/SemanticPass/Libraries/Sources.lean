import SemanticPass.Files.Access
import SemanticPass.Libraries
import SemanticPass.Libraries.CommandLine
import SemanticPass.Libraries.FieldValue
import SemanticPass.Libraries.Toml.Document

/-!
# Collecting the values of the settings

A setting is taken from the first of its places that has it. Only the value found there is read,
also when it turns out to be no value. A number in the key file has to be finite, whichever place
comes first. The names of environment variables ignore case.

All of this is how the library that the program is run with is taken to work, as far as that can be
seen from its outside; of the words of an error only their beginning is given. No statement on the
program rests on it.
-/

namespace SemanticPass

/-- Why values cannot be collected. -/
inductive CollectError where
  /-- The command line is wrong. -/
  | usage (error : UsageError)
  /-- The key file is missing or malformed. -/
  | keyFile
  /-- The value of a setting cannot be read. -/
  | unreadable (setting : Setting) (raw : String)
  /-- The key file gives a setting a number that is not finite. -/
  | nonFinite (number : Toml.NonFinite)
  deriving DecidableEq, Repr

/-- The words of an error, without what the readers of the places would add to them. -/
def CollectError.message : CollectError → String
  | .usage _ => "failed to parse command line"
  | .keyFile => "failed to collect config file"
  | .unreadable setting raw =>
    s!"Can't deserialize from value: {raw} of field {setting.name}"
  | .nonFinite number =>
    s!"failed to convert to serde_json Number from from f64 {number.name}"

/-- The value of a variable, whose name may be written in either case; of several such variables
the last one counts. -/
def Environment.variable? (environment : Environment) (name : String) : Option String :=
  (environment.findRev? fun entry => entry.1.map Char.toUpper == name.map Char.toUpper).map (·.2)

/-- Reads a raw value of a setting. -/
def Setting.read? : (setting : Setting) → String → Option setting.Value
  | .trace, raw | .sourceName, raw | .outputDir, raw | .logLevel, raw => FieldValue.text? raw
  | .noTables, raw => FieldValue.truth? raw

/-- What the places hold. -/
structure Sources where
  /-- The values given on the command line. -/
  commandLine : CommandLine.Given := []
  /-- The environment. -/
  environment : Environment := []
  /-- The members of the key file, if one is named. -/
  keyFile : Toml.Members := []

namespace Sources

/-- The path of the key file: from the command line, or else from the environment. -/
def keyFilePath? (sources : Sources) : Option String :=
  sources.commandLine.lookup .config <|> sources.environment.variable? "c_sema_config"

/-- What the key file gives a setting, as JSON text. -/
def fromKeyFile? (sources : Sources) (setting : Setting) : Except CollectError (Option String) :=
  match sources.keyFile.lookup setting.name with
  | none => .ok none
  | some value =>
    match value.json with
    | .ok text => .ok (some text)
    | .error number => .error (.nonFinite number)

/-- What a place has for a setting, with the JSON text of what the key file has. -/
def held (sources : Sources) (inFile : Option String) (setting : Setting) :
    Place → Option String
  | .commandLine => sources.commandLine.lookup (.forSetting setting)
  | .environment => sources.environment.variable? setting.variableName
  | .keyFile => inFile

/-- The raw value of a setting, from the first of its places that has it. The value of the key file
has to have a JSON text even if another place comes first. -/
def raw? (sources : Sources) (setting : Setting) : Except CollectError (Option String) := do
  let inFile ← sources.fromKeyFile? setting
  return setting.places.findSome? (sources.held inFile setting)

/-- The value of a setting. -/
def value (sources : Sources) (setting : Setting) : Except CollectError setting.Value := do
  match ← sources.raw? setting with
  | none => .ok setting.default
  | some raw =>
    match setting.read? raw with
    | some value => .ok value
    | none => .error (.unreadable setting raw)

/-- The values of all settings. -/
def values (sources : Sources) : Except CollectError Values := Values.read sources.value

variable {m : Type → Type} [Monad m] [FileAccess m]

/-- The file that a path of a key file means: the one at the path, or else the one with the
extension added to its name. -/
def findKeyFile (path : String) : m (Option String) := do
  if ← FileAccess.isFile path then return some path
  let extended := Path.addExtension path "toml"
  if ← FileAccess.isFile extended then return some extended
  return none

/-- The members of the key file at a path. -/
def readKeyFile (path : String) : m (Option Toml.Members) := do
  match ← findKeyFile path with
  | none => return none
  | some file =>
    match ← FileAccess.readText file with
    | .error _ => return none
    | .ok text => return Toml.Document.read? text

/-- The places of a command line, an environment, and the key file that one of them names. -/
def find? (commandLine : CommandLine.Given) (environment : Environment) :
    m (Option Sources) := do
  let sources : Sources := { commandLine, environment }
  match sources.keyFilePath? with
  | none => return some sources
  | some path =>
    let members? ← readKeyFile path
    return members?.map fun keyFile => { sources with keyFile }

/-- Collects the values of the settings. -/
def collect (arguments : List String) (environment : Environment) : m Collected := do
  match CommandLine.parse arguments with
  | .error error => return .refused (CollectError.usage error).message
  | .ok .help => return .shown CommandLine.helpText
  | .ok .version => return .shown CommandLine.versionText
  | .ok (.run given) =>
    match ← find? given environment with
    | none => return .refused CollectError.keyFile.message
    | some sources => return .ofReading (sources.values.mapError CollectError.message)

end Sources

end SemanticPass
