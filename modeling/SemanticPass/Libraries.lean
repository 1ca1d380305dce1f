import SemanticPass.Settings

/-!
# What is left to libraries

The program leaves two things to libraries that are no part of it: to collect the values of its
settings, and to write a line of the log. It is a function of what they do, so that a statement on
the program names what it relies on. The time that a log line starts with is left out everywhere.
-/

namespace SemanticPass

/-- The variables of the environment, by their names. -/
abbrev Environment := List (String × String)

/-- What a command line comes to. -/
inductive Collected where
  /-- It asks for a text, such as the help text, and not for a run. -/
  | shown (text : String)
  /-- The values of the settings cannot be collected. -/
  | refused (message : String)
  /-- The values of the settings. -/
  | values (values : Values)
  deriving DecidableEq, Repr

/-- What is answered once the settings were read. -/
def Collected.ofReading : Except String Values → Collected
  | .error message => .refused message
  | .ok found => .values found

/-- What the program takes from libraries. -/
structure Libraries (m : Type → Type) where
  /-- Collects the values of the settings from arguments, an environment, and files. -/
  collect : List String → Environment → m Collected
  /-- A line of the log, without the time it starts with. -/
  logLine : LogRecord → String

end SemanticPass
