import SemanticPass.Files.Access
import SemanticPass.Libraries
import SemanticPass.Listing
import SemanticPass.Replay

/-!
# The program

The program gets its settings, replays the trace they name, and tells what it found: the
diagnostics, and the tables unless they are left out. It ends with the code zero if there are no
diagnostics, with one if there are, and with two if it could not do its work.

## Implementation notes

A report holds every log record there could be, in its place among the other output. The level is
applied when the report is printed, so it cannot have an influence on anything else.
-/

namespace SemanticPass.Program

/-- A piece of the output: a log record, which the level may hide, or text. -/
inductive Item where
  | logged (entry : LogRecord)
  | printed (text : String)
  deriving DecidableEq, Repr

/-- What is seen of a piece of the output at a level, with the lines that log records have. -/
def Item.shown (line : LogRecord → String) (level : LogLevel) : Item → String
  | .logged entry => if level.admits entry.severity then line entry else ""
  | .printed text => text

/-- What the program says, and the code it ends with. -/
structure Report where
  /-- The code: zero, one, or two. -/
  exitCode : UInt32
  /-- The output with all log records. -/
  items : List Item
  /-- What goes to the error output. -/
  complaint : String := ""
  deriving DecidableEq, Repr

/-- The output of a report at a level. -/
def Report.output (report : Report) (line : LogRecord → String) (level : LogLevel) : String :=
  String.join (report.items.map (Item.shown line level))

/-- A log record of the program itself. -/
def note (severity : Severity) (message : String) : Item :=
  .logged { severity, target := "c_sema", message }

/-- The end of a run that could not do its work. -/
def abort (items : List Item) (complaint : String) : Report :=
  { exitCode := 2, items, complaint := complaint ++ "\n" }

/-! ## Listings -/

/-- Why the listings cannot be written. -/
inductive WriteError where
  /-- The directory cannot be made. -/
  | directory (path : String) (error : FileError)
  /-- A file cannot be written. -/
  | file (path : String) (error : FileError)
  deriving DecidableEq, Repr

/-- The words of a write error. -/
def WriteError.message : WriteError → String
  | .directory path error => s!"cannot create output directory {path}: {error.message}"
  | .file path error => s!"cannot write {path}: {error.message}"

/-- The record of a listing that was written. -/
def wrote (path : String) : Item :=
  .logged { severity := .info, target := "c_sema::listing", message := s!"wrote {path}" }

section

variable {m : Type → Type} [Monad m] [FileAccess m]

/-- Writes files into a directory until one of them fails. -/
def writeFiles (directory : String) : List (String × String) → m (List Item × Option WriteError)
  | [] => return ([], none)
  | (name, text) :: files => do
    let path := Path.inDirectory directory name
    match ← FileAccess.writeText path text with
    | .error error => return ([], some (.file path error))
    | .ok () =>
      let (items, failure) ← writeFiles directory files
      return (wrote path :: items, failure)

/-- Writes the listings of a session into a directory, which is made if need be. -/
def writeListings (session : Session) (directory : String) :
    m (List Item × Option WriteError) := do
  match ← FileAccess.makeDirectories directory with
  | .error error => return ([], some (.directory directory error))
  | .ok () => writeFiles directory (Listing.files session)

/-- The listings of a session as they are printed: tokens, symbols, constants, each after an
empty line. -/
def printedListings (session : Session) : List Item :=
  [Listing.tokens session.tokens, Listing.symbols session.symbols,
    Listing.constants session.constants].map fun listing => .printed ("\n" ++ listing)

/-! ## The run -/

/-- A diagnostic as it is printed, after an empty line. -/
def printedDiagnostic (diagnostic : Diagnostic) : Item :=
  .printed ("\n" ++ diagnostic.text ++ "\n")

/-- The end of a run that did its work: with code one, and their number, if there are
diagnostics. -/
def conclude (session : Session) (items : List Item) : Report :=
  if session.hasError then
    { exitCode := 1
      items := items ++ [note .info s!"{session.diagnostics.size} diagnostics"] }
  else { exitCode := 0, items }

/-- Tells what a session found. -/
def tell (settings : Settings) (session : Session) (items : List Item) : m Report := do
  let items := items ++ session.diagnostics.toList.map printedDiagnostic
  if settings.noTables then return conclude session items
  match settings.outputDir with
  | none => return conclude session (items ++ printedListings session)
  | some directory =>
    let (written, failure) ← writeListings session directory
    match failure with
    | none => return conclude session (items ++ written)
    | some error =>
      return abort (items ++ written)
        s!"Something went wrong writing the tables: {error.message}"

/-- Replays a trace and tells what was found, unless the replay ended early. -/
def analyseText (settings : Settings) (trace : String) : m Report := do
  let (outcome, replay) := (Replay.start settings.sourceName).run trace
  let items := note .info s!"analysing {settings.sourceName}" ::
    replay.session.journal.toList.map fun entry => .logged entry.toRecord
  match outcome with
  | .error error =>
    return abort (items ++ [note .error error.message])
      s!"Semantic analysis aborted: {error.message}"
  | .ok events =>
    let replayed : Item := .logged {
      severity := .info
      target := "c_sema::trace"
      message := s!"replayed {events} events for {settings.sourceName}" }
    tell settings replay.session (items ++ [replayed])

/-- Does the work that the settings ask for. -/
def analyse (settings : Settings) : m Report := do
  match ← FileAccess.readText settings.trace with
  | .error error =>
    return abort [note .error s!"cannot read {settings.trace}: {error.message}"]
      s!"Something went wrong reading the trace file: {error.message}"
  | .ok trace => analyseText settings trace

/-! ## The command line -/

/-- What a run of the program leaves for whoever called it, its files apart. -/
structure Response where
  /-- The code it ends with. -/
  exitCode : UInt32
  /-- The output. -/
  output : String := ""
  /-- The error output. -/
  complaint : String := ""
  deriving DecidableEq, Repr

/-- A report as it is seen at a level. -/
def Report.at (report : Report) (line : LogRecord → String) (level : LogLevel) : Response :=
  { exitCode := report.exitCode
    output := report.output line level
    complaint := report.complaint }

/-- The end of a run without settings. -/
def refuse (error : SettingsError) : Response :=
  { exitCode := 2
    complaint := s!"Something went wrong parsing the configuration: {error.message}" ++ "\n" }

/-- Does the work that a command line asks for. -/
def run (libraries : Libraries m) (arguments : List String) (environment : Environment) :
    m Response := do
  match ← libraries.collect arguments environment with
  | .shown text => return { exitCode := 0, output := text }
  | .refused message => return refuse (.uncollected message)
  | .values values =>
    match Settings.ofValues values with
    | .error error => return refuse error
    | .ok settings => return (← analyse settings).at libraries.logLine settings.logLevel

end

end SemanticPass.Program
