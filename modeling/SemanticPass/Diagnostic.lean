import SemanticPass.Occurrences

/-!
# Diagnostics

A diagnostic is one complaint about the analysed program. The line of a use, a check or an
index is the one after the line complained about, so it is reported one less; the line of a
declaration is reported as it is.
-/

namespace SemanticPass

/-- What a diagnostic complains about. -/
inductive DiagnosticKind where
  /-- A name is used that no declaration gave. -/
  | undeclaredVariable
  /-- A type differs from the one expected. -/
  | typeMismatch
  /-- A name is declared again where it is known, with the type it has or with another. -/
  | multipleDeclaration (sameType : Bool)
  /-- An array index is negative. -/
  | arrayIndex
  deriving DecidableEq, Repr

namespace DiagnosticKind

/-- The line to report for a complaint made at a line: a declaration's own line, and otherwise
the line before, where there is one. -/
def reportedLine (kind : DiagnosticKind) (line : LineNumber) : LineNumber :=
  match kind with
  | .multipleDeclaration _ => line
  | .undeclaredVariable | .typeMismatch | .arrayIndex => if line = 0 then 0 else line - 1

/-- The words of a complaint. -/
def message : DiagnosticKind → String
  | .undeclaredVariable => "Undeclared variable"
  | .typeMismatch => "Type Mismatch error"
  | .multipleDeclaration true => "Multiple Declaration"
  | .multipleDeclaration false => "Multiple Declaration with Different Type"
  | .arrayIndex => "Array Index error"

end DiagnosticKind

/-- One complaint about a line of a source. -/
structure Diagnostic where
  /-- The name of the source. -/
  sourceName : String
  /-- The line as reported. -/
  line : LineNumber
  /-- What is complained about. -/
  kind : DiagnosticKind
  deriving DecidableEq, Repr

namespace Diagnostic

/-- The complaint that is made about a source at a line not yet adjusted. -/
def report (sourceName : String) (kind : DiagnosticKind) (line : LineNumber) : Diagnostic :=
  { sourceName, line := kind.reportedLine line, kind }

/-- The text of a diagnostic: source, line and complaint. -/
def text (diagnostic : Diagnostic) : String :=
  s!"{diagnostic.sourceName} : {diagnostic.line} :{diagnostic.kind.message}"

@[simp]
theorem sourceName_report (sourceName : String) (kind : DiagnosticKind) (line : LineNumber) :
    (report sourceName kind line).sourceName = sourceName := rfl

@[simp]
theorem kind_report (sourceName : String) (kind : DiagnosticKind) (line : LineNumber) :
    (report sourceName kind line).kind = kind := rfl

end Diagnostic

end SemanticPass
