import SemanticPass.Diagnostic
import SemanticPass.Table.Symbol
import SemanticPass.TokenCategory

/-!
# Log records and the journal of a session

A log record has a severity, a target that names the part it comes from, and a message. Which
records are shown is decided by a level when they are printed, and not before: a session keeps
a journal of everything worth a record, so that no step of the analysis depends on the level.
-/

namespace SemanticPass

/-- How urgent a log record is. -/
inductive Severity where
  | error
  | warn
  | info
  | debug
  deriving DecidableEq, Repr

namespace Severity

/-- How verbose a level has to be to show the severity. -/
def rank : Severity → Nat
  | .error => 1
  | .warn => 2
  | .info => 3
  | .debug => 4

end Severity

/-- How verbose the log is. -/
inductive LogLevel where
  | off
  | error
  | warn
  | info
  | debug
  | trace
  deriving DecidableEq, Repr

namespace LogLevel

/-- Every level, the least verbose first. -/
def all : List LogLevel := [.off, .error, .warn, .info, .debug, .trace]

/-- The name of a level. -/
def name : LogLevel → String
  | .off => "OFF"
  | .error => "ERROR"
  | .warn => "WARN"
  | .info => "INFO"
  | .debug => "DEBUG"
  | .trace => "TRACE"

/-- How verbose a level is. -/
def rank : LogLevel → Nat
  | .off => 0
  | .error => 1
  | .warn => 2
  | .info => 3
  | .debug => 4
  | .trace => 5

/-- The level of a name, in which ASCII letters of either case are the same. -/
def ofName? (name : String) : Option LogLevel :=
  all.find? fun level => level.name == name.map Char.toUpper

/-- Whether records of a severity are shown at a level. -/
def admits (level : LogLevel) (severity : Severity) : Bool := severity.rank ≤ level.rank

/-- Nothing is shown when the log is off. -/
@[simp]
theorem admits_off (severity : Severity) : admits .off severity = false := by
  cases severity <;> rfl

/-- A more verbose level shows all that a less verbose one shows. -/
theorem admits_mono {less more : LogLevel} (h : less.rank ≤ more.rank) {severity : Severity}
    (shown : less.admits severity = true) : more.admits severity = true := by
  simp only [admits, decide_eq_true_eq] at shown ⊢
  exact Nat.le_trans shown h

end LogLevel

/-- What a line of the log tells. -/
structure LogRecord where
  /-- How urgent it is. -/
  severity : Severity
  /-- The part of the program it comes from. -/
  target : String
  /-- What happened. -/
  message : String
  deriving DecidableEq, Repr

/-- Something a session did that is worth a log record. -/
inductive Note where
  /-- The symbol table has a new row. -/
  | symbolCreated (declaredType : DeclaredType) (key : SymbolKey) (line : LineNumber)
  /-- The constant table has a new row. -/
  | constantCreated (literal : String) (line : LineNumber)
  /-- The token table has a new row. -/
  | tokenCreated (lexeme : String) (category : TokenCategory) (line : LineNumber)
  /-- A function begins. -/
  | functionEntered (function : FunctionId)
  /-- A diagnostic was made. -/
  | reported (diagnostic : Diagnostic)
  deriving DecidableEq, Repr

/-- The log record of a note: a diagnostic is a warning, everything else is for debugging. -/
def Note.toRecord : Note → LogRecord
  | .symbolCreated type key line =>
    { severity := .debug
      target := "c_sema::tables::symbol"
      message := s!"symbol table: {type.name} {key.name} (scope {key.scope}, " ++
        s!"function {key.function}) at line {line}" }
  | .constantCreated literal line =>
    { severity := .debug
      target := "c_sema::tables::constant"
      message := s!"constant table: {literal} at line {line}" }
  | .tokenCreated lexeme category line =>
    { severity := .debug
      target := "c_sema::tables::token"
      message := s!"token table: {lexeme} as {category.name} at line {line}" }
  | .functionEntered function =>
    { severity := .debug
      target := "c_sema::session"
      message := s!"entering function {function}" }
  | .reported diagnostic =>
    { severity := .warn
      target := "c_sema::session"
      message := diagnostic.text }

end SemanticPass
