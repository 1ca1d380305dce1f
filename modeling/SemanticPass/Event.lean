import SemanticPass.DeclaredType
import SemanticPass.Occurrences

/-!
# Trace events

An event is one step of a front end that a trace records: a token seen, a name declared or used,
a type to check, a scope entered or left.
-/

namespace SemanticPass

/-- The operand of a type check: a code of its own, or the result of the last use. -/
inductive ActualType where
  | code (code : TypeCode)
  | lastResolved
  deriving DecidableEq, Repr

/-- One step of a front end. -/
inductive Event where
  /-- A token, with the tag of its category. -/
  | token (tag : Char) (line : LineNumber) (lexeme : String)
  /-- A literal constant. -/
  | constant (line : LineNumber) (literal : String)
  /-- Declarations of the type with this tag begin. -/
  | beginType (tag : Char)
  /-- Declarations of the pending type end. -/
  | endType
  /-- A name is declared in the current scope. -/
  | declare (line : LineNumber) (name : String)
  /-- A name is recorded in the current scope, without a check. -/
  | record (line : LineNumber) (name : String)
  /-- A name is used in the current scope. -/
  | use (line : LineNumber) (name : String)
  /-- The next check without a type of its own expects this one. -/
  | expect (code : TypeCode)
  /-- A type is checked. -/
  | check (actual : ActualType) (expected : TypeCode) (line : LineNumber)
  /-- An array is indexed. -/
  | index (value : Int64) (line : LineNumber)
  /-- A scope is entered. -/
  | enterScope
  /-- The current scope is left. -/
  | exitScope
  /-- A function begins. -/
  | enterFunction
  deriving DecidableEq, Repr

end SemanticPass
