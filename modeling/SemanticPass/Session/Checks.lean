import SemanticPass.Session

/-!
# The checks of a session

What a declaration, a use, a type check and an array index do to a session. A declaration needs
a pending type and complains when its key is known; a use refers to the oldest declaration of
its name in any scope, and is recorded where it stands; a check without a type of its own takes
the expected one, and every check puts the default back.
-/

namespace SemanticPass

/-- The names that may be used without a declaration and are never recorded by a use. -/
def builtinNames : List String := ["printf", "scanf"]

namespace Session

/-- The key of a name in a scope of the current function. -/
def keyIn (session : Session) (name : String) (scope : ScopeId) : SymbolKey :=
  { name, scope, function := session.function }

/-- Records a name with the pending type, without any complaint. -/
def recordDeclaration (session : Session) (name : String) (line : LineNumber) (scope : ScopeId) :
    Attempt Recorded :=
  match session.pendingType with
  | none => (.error (.missingDeclaredType name line), session)
  | some type =>
    let (recorded, session) := session.recordSymbol (session.keyIn name scope) type line
    (.ok recorded, session)

/-- Declares a name with the pending type: a name known in that scope and function is
complained about and not recorded again. -/
def declare (session : Session) (name : String) (line : LineNumber) (scope : ScopeId) :
    Attempt Unit :=
  match session.pendingType with
  | none => (.error (.missingDeclaredType name line), session)
  | some type =>
    match session.symbols.declaredType? (session.keyIn name scope) with
    | some previous =>
      (.ok (), session.report (.multipleDeclaration (previous == type)) line)
    | none =>
      let (answer, session) := session.recordDeclaration name line scope
      (answer.map fun _ => (), session)

/-- Uses a name in the current scope and answers the type code of its oldest declaration; a
builtin name and a name without declaration are not checked. -/
def use (session : Session) (name : String) (line : LineNumber) : TypeCode × Session :=
  if builtinNames.contains name then
    (.unchecked, session)
  else
    match session.symbols.firstNamed? name with
    | none => (.unchecked, session.report .undeclaredVariable line)
    | some oldest =>
      let key := session.keyIn name session.scope
      (oldest.declaredType.code, (session.recordSymbol key oldest.declaredType line).2)

/-- Checks a type against the one given, or against the expected one if none is given. -/
def checkType (session : Session) (actual expected : TypeCode) (line : LineNumber) : Session :=
  let (pending, session) := session.takeExpectedType
  let wanted := if expected = .unchecked then pending else expected
  if actual = wanted then session else session.report .typeMismatch line

/-- Checks that an array index is not negative. -/
def checkIndex (session : Session) (index : Int64) (line : LineNumber) : Session :=
  if index < 0 then session.report .arrayIndex line else session

end Session

end SemanticPass
