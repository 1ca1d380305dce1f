import SemanticPass.Libraries.Sources

/-!
# The libraries that the program is run with

What they do is assumed here and is no part of the program. A statement on the program does not rest
on it, but on the properties of libraries that it names. Only the runs that show a case of a
statement use these libraries.
-/

namespace SemanticPass

/-- The name of a severity in a log line, where it fills a column of five characters. -/
def Severity.column : Severity → String
  | .error => "ERROR"
  | .warn => "WARN "
  | .info => "INFO "
  | .debug => "DEBUG"

namespace Libraries

/-- A log line: the severity, the target and the message. The time that stands before them is left
out. -/
def logLineText (entry : LogRecord) : String :=
  s!"{entry.severity.column} [{entry.target}] {entry.message}\n"

/-- The libraries on some file system. -/
def standard {m : Type → Type} [Monad m] [FileAccess m] : Libraries m where
  collect := Sources.collect
  logLine := logLineText

end Libraries

end SemanticPass
