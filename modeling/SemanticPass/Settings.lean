import SemanticPass.Files.Path
import SemanticPass.Journal
import SemanticPass.Settings.Setting

/-!
# Settings

The values of the settings are collected elsewhere. The program has demands of its own on them: a
trace has to be named, and then a log level that is named has to be one. The rest has defaults.
-/

namespace SemanticPass

/-- What the program is told to do. -/
structure Settings where
  /-- The path of the trace. -/
  trace : String
  /-- The name of the analysed source. -/
  sourceName : String
  /-- The directory for the listings, which are printed if there is none. -/
  outputDir : Option String
  /-- How verbose the log is. -/
  logLevel : LogLevel
  /-- Whether the listings are left out. -/
  noTables : Bool
  deriving DecidableEq, Repr

/-- Why there are no settings. -/
inductive SettingsError where
  /-- The values cannot be collected, in the words of whoever collects them. -/
  | uncollected (message : String)
  /-- No trace is given. -/
  | noTrace
  /-- No log level has this name. -/
  | unknownLogLevel (name : String)
  deriving DecidableEq, Repr

/-- The words of an error in the settings. -/
def SettingsError.message : SettingsError → String
  | .uncollected message => message
  | .noTrace => "no trace file given (use --trace)"
  | .unknownLogLevel name =>
    s!"the log level {name} is unknown " ++
      "(expected off, error, warn, info, debug or trace)"

namespace Settings

/-- The name of a source when none is given: that of the trace, with its own extension. -/
def defaultSourceName (trace : String) : String := (Path.fileStem? trace).getD "input" ++ ".c"

/-- The log level of a name; warnings are shown if there is none. -/
def levelOf : Option String → Except SettingsError LogLevel
  | none => .ok .warn
  | some name =>
    match LogLevel.ofName? name with
    | some level => .ok level
    | none => .error (.unknownLogLevel name)

/-- The settings of collected values. -/
def ofValues (values : Values) : Except SettingsError Settings := do
  match values.trace with
  | none => .error .noTrace
  | some trace =>
    let logLevel ← levelOf values.logLevel
    return {
      trace
      sourceName := values.sourceName.getD (defaultSourceName trace)
      outputDir := values.outputDir
      logLevel
      noTables := values.noTables }

end Settings

end SemanticPass
