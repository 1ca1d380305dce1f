import SemanticPass.Session

/-!
# Table listings

The text of a table: a header line, and then one line for each row in the order of the table.
A table without rows has a line of its own that says so.
-/

namespace SemanticPass.Listing

/-- Line numbers, separated by single spaces. -/
def lineNumbers (lines : List LineNumber) : String :=
  " ".intercalate (lines.map toString)

/-- Text lines, each with its line feed. -/
def document (lines : List String) : String := String.join (lines.map (· ++ "\n"))

/-- The row of a name. -/
def symbolRow (entry : SymbolEntry) : String :=
  s!"{entry.key.name} | {entry.declaredType.name} | {lineNumbers entry.lines} | " ++
    s!"{entry.scopeKind.name} | {entry.key.function}"

/-- The row of a literal. -/
def constantRow (entry : String × List LineNumber) : String :=
  s!"{entry.1} | {lineNumbers entry.2}"

/-- The row of a lexeme. -/
def tokenRow (entry : TokenEntry) : String :=
  s!"{entry.lexeme} | {entry.category.name} | {lineNumbers entry.lines}"

/-- The listing of the symbol table. -/
def symbols (table : SymbolTable) : String :=
  if table.isEmpty then "No symbol table entries\n"
  else document ("Lexeme | Type | Line No | Scope | Func No" :: table.entries.map symbolRow)

/-- The listing of the constant table. -/
def constants (table : ConstantTable) : String :=
  if table.isEmpty then "No constant table entries\n"
  else document ("Value | Line No" :: table.entries.map constantRow)

/-- The listing of the token table. -/
def tokens (table : TokenTable) : String :=
  if table.isEmpty then "No token table entries\n"
  else document ("Lexeme | Token Type | Line No" :: table.entries.map tokenRow)

/-- The files that hold the listings of a session, in the order they are written. -/
def files (session : Session) : List (String × String) :=
  [("symbolTable", symbols session.symbols),
    ("constantTable", constants session.constants),
    ("parseTable", tokens session.tokens)]

end SemanticPass.Listing
