import SemanticPass.Journal
import SemanticPass.Table.Constant
import SemanticPass.Table.Token
import SemanticPass.Violation

/-!
# Analysis sessions

A session is all that is known of one source at one point of its analysis: where the analysis
stands, the declared type and the expected type that wait for their use, the tables, and the
diagnostics made so far.

## Implementation notes

An operation that can refuse answers with the session it leaves behind also when it refuses,
as an `Attempt`. What a refusal leaves unchanged is therefore a statement about the operation,
and not an accident of its type.
-/

namespace SemanticPass

/-- The expected type when none was set since the last type check, which is that of integers. -/
def defaultExpectedType : TypeCode := 3

/-- All that is known of a source at one point of its analysis. -/
structure Session where
  /-- The name of the source, as diagnostics give it. -/
  sourceName : String
  /-- The current scope. -/
  scope : ScopeId := 0
  /-- The current function. -/
  function : FunctionId := 0
  /-- The type that declarations give now. -/
  pendingType : Option DeclaredType := none
  /-- The type that the next check without one of its own expects. -/
  expectedType : TypeCode := defaultExpectedType
  /-- Whether a diagnostic was ever made. -/
  hasError : Bool := false
  /-- The diagnostics, the oldest first. -/
  diagnostics : Array Diagnostic := #[]
  /-- The symbol table. -/
  symbols : SymbolTable := .empty
  /-- The constant table. -/
  constants : ConstantTable := .empty
  /-- The token table. -/
  tokens : TokenTable := .empty
  /-- What is worth a log record, the oldest first. -/
  journal : Array Note := #[]

/-- What an operation answers or why it refuses, with the session it leaves behind. -/
abbrev Attempt (α : Type) := Except Violation α × Session

namespace Session

/-- The session before anything was analysed. -/
def start (sourceName : String) : Session := { sourceName }

/-- Adds a note to the journal. -/
def log (session : Session) (note : Note) : Session :=
  { session with journal := session.journal.push note }

/-- Adds a note to the journal if a recording made a new row. -/
def logCreated (session : Session) (recorded : Recorded) (note : Note) : Session :=
  match recorded with
  | .created => session.log note
  | .appended => session

/-! ## Scopes and functions -/

/-- Enters a scope inside the current one. -/
def enterScope (session : Session) : Session := { session with scope := session.scope + 1 }

/-- Leaves the current scope; the global scope cannot be left. -/
def exitScope (session : Session) : Attempt Unit :=
  if session.scope = 0 then (.error .scopeUnderflow, session)
  else (.ok (), { session with scope := session.scope - 1 })

/-- Begins the next function. -/
def enterFunction (session : Session) : Session :=
  let session := { session with function := session.function + 1 }
  session.log (.functionEntered session.function)

/-! ## Types that wait for their use -/

/-- Sets the type that declarations give from here on. -/
def setType (session : Session) (type : DeclaredType) : Session :=
  { session with pendingType := some type }

/-- Sets the type that declarations give from its tag. -/
def setTypeTag (session : Session) (tag : Char) : Attempt Unit :=
  match DeclaredType.ofTag? tag with
  | none => (.error (.unknownTypeTag tag), session)
  | some type => (.ok (), session.setType type)

/-- Ends the declarations of the pending type. -/
def clearType (session : Session) : Session := { session with pendingType := none }

/-- Sets the type that the next check without one of its own expects. -/
def setExpectedType (session : Session) (code : TypeCode) : Session :=
  { session with expectedType := code }

/-- Takes the expected type out; the default is in its place afterwards. -/
def takeExpectedType (session : Session) : TypeCode × Session :=
  (session.expectedType, { session with expectedType := defaultExpectedType })

/-! ## Diagnostics and tables -/

/-- Makes a diagnostic about a line. -/
def report (session : Session) (kind : DiagnosticKind) (line : LineNumber) : Session :=
  let diagnostic := Diagnostic.report session.sourceName kind line
  { session with
    hasError := true
    diagnostics := session.diagnostics.push diagnostic
    journal := session.journal.push (.reported diagnostic) }

/-- Records a literal. -/
def addConstant (session : Session) (literal : String) (line : LineNumber) : Session :=
  let (recorded, constants) := session.constants.add literal line
  { session with constants }.logCreated recorded (.constantCreated literal line)

/-- Records a token whose category is given by its tag, and answers that category. -/
def classify (session : Session) (lexeme : String) (tag : Char) (line : LineNumber) :
    Attempt TokenCategory :=
  match TokenCategory.ofTag? tag with
  | none => (.error (.unknownTokenTag tag), session)
  | some category =>
    let (recorded, tokens) := session.tokens.classify lexeme category line
    (.ok category,
      { session with tokens }.logCreated recorded (.tokenCreated lexeme category line))

/-- Records a name under a key, with a type for the key that has none. -/
def recordSymbol (session : Session) (key : SymbolKey) (type : DeclaredType)
    (line : LineNumber) : Recorded × Session :=
  let (recorded, symbols) := session.symbols.record key type line
  (recorded, { session with symbols }.logCreated recorded (.symbolCreated type key line))

/-! ## What the journal leaves alone -/

/-- A note changes the journal and nothing else. -/
theorem logCreated_eq (session : Session) (recorded : Recorded) (note : Note) :
    session.logCreated recorded note =
      { session with journal := (session.logCreated recorded note).journal } := by
  cases recorded <;> rfl

end Session

end SemanticPass
