import SemanticPass.Settings.Setting

/-!
# The command line

The arguments give values to options, each option once: `--name value`, `--name=value`, `-n value`,
`-nvalue` and `-n=value`. A value that stands alone does not begin with a dash, unless it is a
single dash. An argument `--` ends the options, and nothing may follow it. Help and version are
asked for by an argument of their own; what stands after it is not looked at.

All of this is assumed of the library that reads the command line.
-/

namespace SemanticPass

/-- What can be wrong with a command line. -/
inductive UsageError where
  /-- An argument names no option. -/
  | unknownOption (argument : String)
  /-- An argument belongs to no option. -/
  | unexpectedArgument (argument : String)
  /-- An option has no value. -/
  | missingValue (option : CommandOption)
  /-- An option has two values. -/
  | repeatedOption (option : CommandOption)
  /-- Help or version have a value. -/
  | unwantedValue (argument : String)
  deriving DecidableEq, Repr

namespace CommandLine

/-- The values given to options, in the order of the arguments. -/
abbrev Given := List (CommandOption × String)

/-- What a command line asks for. -/
inductive Request where
  /-- The help text. -/
  | help
  /-- The version. -/
  | version
  /-- A run with these values. -/
  | run (given : Given)
  deriving DecidableEq, Repr

/-- What a single argument is. -/
inductive Argument where
  /-- The end of the options. -/
  | terminator
  /-- A question for the help text. -/
  | help
  /-- A question for the version. -/
  | version
  /-- An option, with its value if that is in the same argument. -/
  | option (option : CommandOption) (value : Option String)
  /-- A value, or an argument that belongs to no option. -/
  | plain (text : String)
  /-- An argument that is wrong by itself. -/
  | faulty (error : UsageError)
  deriving DecidableEq, Repr

/-- An argument that begins with two dashes: a name, and a value after an equals sign. -/
def longArgument (argument : String) (body : List Char) : Argument :=
  let name := String.ofList (body.takeWhile (· ≠ '='))
  let value := match body.dropWhile (· ≠ '=') with
    | [] => none
    | _ :: value => some (String.ofList value)
  match CommandOption.ofName? name with
  | some option => .option option value
  | none =>
    if name = "help" then
      if value.isNone then .help else .faulty (.unwantedValue argument)
    else if name = "version" then
      if value.isNone then .version else .faulty (.unwantedValue argument)
    else .faulty (.unknownOption argument)

/-- An argument that begins with one dash: a letter, and a value right after it or after an equals
sign. -/
def shortArgument (argument : String) (letter : Char) (rest : List Char) : Argument :=
  match CommandOption.ofLetter? letter with
  | some option =>
    let value := match rest with
      | [] => none
      | '=' :: value => some (String.ofList value)
      | value => some (String.ofList value)
    .option option value
  | none =>
    if letter = 'h' then .help
    else if letter = 'V' then .version
    else .faulty (.unknownOption argument)

/-- What an argument is. -/
def classify (argument : String) : Argument :=
  match argument.toList with
  | ['-', '-'] => .terminator
  | '-' :: '-' :: body => longArgument argument body
  | '-' :: letter :: rest => shortArgument argument letter rest
  | _ => .plain argument

/-- Gives a value to an option that has none. -/
def give (given : Given) (option : CommandOption) (value : String) : Except UsageError Given :=
  if (given.lookup option).isSome then .error (.repeatedOption option)
  else .ok (given ++ [(option, value)])

/-- Reads arguments, with the values given so far and the option that waits for its value. -/
def parseFrom (given : Given) : Option CommandOption → List String → Except UsageError Request
  | none, [] => .ok (.run given)
  | some option, [] => .error (.missingValue option)
  | waiting, argument :: rest => do
    match classify argument, waiting with
    | .plain value, some option => parseFrom (← give given option value) none rest
    | .plain text, none => .error (.unexpectedArgument text)
    | _, some option => .error (.missingValue option)
    | .terminator, none =>
      match rest with
      | [] => .ok (.run given)
      | extra :: _ => .error (.unexpectedArgument extra)
    | .help, none => .ok .help
    | .version, none => .ok .version
    | .option option none, none => parseFrom given (some option) rest
    | .option option (some value), none => parseFrom (← give given option value) none rest
    | .faulty error, none => .error error

/-- Reads the arguments of the program. -/
def parse (arguments : List String) : Except UsageError Request := parseFrom [] none arguments

/-- The help text. -/
def helpText : String := String.join (
  ["Usage: c-sema [OPTIONS]",
    "",
    "Options:",
    "  -c, --config <config>            path to configuration file",
    "  -t, --trace <trace>              ",
    "  -s, --source_name <source_name>  ",
    "  -o, --output_dir <output_dir>    ",
    "  -l, --log_level <log_level>      ",
    "      --no_tables <no_tables>      ",
    "  -h, --help                       Print help",
    "  -V, --version                    Print version"].map (· ++ "\n"))

/-- The version. -/
def versionText : String := "c-sema 0.0.1\n"

end CommandLine

end SemanticPass
