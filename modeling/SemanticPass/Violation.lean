import SemanticPass.Occurrences

/-!
# Violations

A violation is a step of the analysis that cannot be taken at all, because what had to come
before it is missing. It is no complaint about the analysed program, and it records nothing.
-/

namespace SemanticPass

/-- Why a step of the analysis cannot be taken. -/
inductive Violation where
  /-- A name is declared while no declared type is pending. -/
  | missingDeclaredType (name : String) (line : LineNumber)
  /-- A scope is left while the global scope is the current one. -/
  | scopeUnderflow
  /-- No declared type has this tag. -/
  | unknownTypeTag (tag : Char)
  /-- No token category has this tag. -/
  | unknownTokenTag (tag : Char)
  deriving DecidableEq, Repr

/-- The words of a violation. -/
def Violation.message : Violation → String
  | .missingDeclaredType name line => s!"{line}: {name} declared with no pending declared type"
  | .scopeUnderflow => "block closed while already in global scope"
  | .unknownTypeTag tag => s!"unknown declared type tag '{tag}'"
  | .unknownTokenTag tag => s!"unknown token kind tag '{tag}'"

end SemanticPass
