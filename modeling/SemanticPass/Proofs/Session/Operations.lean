import SemanticPass.Proofs.Table.Symbols
import SemanticPass.Session.Checks

/-!
# Operations of a session, one equation each

Each operation changes a few fields of a session and leaves the others alone. The equations say
which, so that no later proof has to open an operation. The journal changes along with the
tables; nothing is said of it but that nothing else depends on it.
-/

namespace SemanticPass

namespace Session

/-- A recording changes the symbol table and the journal. -/
theorem recordSymbol_eq (session : Session) (key : SymbolKey) (type : DeclaredType)
    (line : LineNumber) :
    (session.recordSymbol key type line).2 =
      { session with
        symbols := (session.symbols.record key type line).2
        journal := (session.recordSymbol key type line).2.journal } := by
  simp only [recordSymbol]
  rw [logCreated_eq]

/-- A literal changes the constant table and the journal. -/
theorem addConstant_eq (session : Session) (literal : String) (line : LineNumber) :
    session.addConstant literal line =
      { session with
        constants := (session.constants.add literal line).2
        journal := (session.addConstant literal line).journal } := by
  simp only [addConstant]
  rw [logCreated_eq]

/-- A classification under a known tag changes the token table and the journal. -/
theorem classify_of_known {tag : Char} {category : TokenCategory}
    (h : TokenCategory.ofTag? tag = some category) (session : Session) (lexeme : String)
    (line : LineNumber) :
    session.classify lexeme tag line =
      (.ok category,
        { session with
          tokens := (session.tokens.classify lexeme category line).2
          journal := (session.classify lexeme tag line).2.journal }) := by
  simp only [classify, h]
  rw [logCreated_eq]

/-- A classification under an unknown tag is refused. -/
theorem classify_of_unknown {tag : Char} (h : TokenCategory.ofTag? tag = none) (session : Session)
    (lexeme : String) (line : LineNumber) :
    session.classify lexeme tag line = (.error (.unknownTokenTag tag), session) := by
  simp only [classify, h]

/-- A type check puts the default back, and makes a diagnostic if the operand has another code
than the one given or, without one, the expected one. -/
theorem checkType_eq (session : Session) (actual expected : TypeCode) (line : LineNumber) :
    session.checkType actual expected line =
      if actual = if expected = .unchecked then session.expectedType else expected then
        { session with expectedType := defaultExpectedType }
      else { session with expectedType := defaultExpectedType }.report .typeMismatch line := rfl

/-- Without a pending type a recording is refused. -/
theorem recordDeclaration_of_unset {session : Session} (h : session.pendingType = none)
    (name : String) (line : LineNumber) (scope : ScopeId) :
    session.recordDeclaration name line scope =
      (.error (.missingDeclaredType name line), session) := by
  simp only [recordDeclaration, h]

/-- With a pending type a recording succeeds and adds a sighting of that type. -/
theorem recordDeclaration_of_pending {session : Session} {type : DeclaredType}
    (h : session.pendingType = some type) (name : String) (line : LineNumber) (scope : ScopeId) :
    session.recordDeclaration name line scope =
      (.ok (session.recordSymbol (session.keyIn name scope) type line).1,
        (session.recordSymbol (session.keyIn name scope) type line).2) := by
  simp only [recordDeclaration, h]

/-- Without a pending type a declaration is refused. -/
theorem declare_of_unset {session : Session} (h : session.pendingType = none) (name : String)
    (line : LineNumber) (scope : ScopeId) :
    session.declare name line scope = (.error (.missingDeclaredType name line), session) := by
  simp only [declare, h]

/-- A declaration of a known key makes a diagnostic and does nothing else. -/
theorem declare_of_known {session : Session} {type previous : DeclaredType} {name : String}
    {scope : ScopeId} (h : session.pendingType = some type)
    (hk : session.symbols.declaredType? (session.keyIn name scope) = some previous)
    (line : LineNumber) :
    session.declare name line scope =
      (.ok (), session.report (.multipleDeclaration (previous == type)) line) := by
  simp only [declare, h, hk]

/-- A declaration of a new key adds a sighting of the pending type. -/
theorem declare_of_new {session : Session} {type : DeclaredType} {name : String}
    {scope : ScopeId} (h : session.pendingType = some type)
    (hk : session.symbols.declaredType? (session.keyIn name scope) = none) (line : LineNumber) :
    session.declare name line scope =
      (.ok (), (session.recordSymbol (session.keyIn name scope) type line).2) := by
  simp only [declare, h, hk, recordDeclaration_of_pending h]
  rfl

/-- A use of a builtin name does nothing. -/
theorem use_of_builtin {session : Session} {name : String} (h : name ∈ builtinNames)
    (line : LineNumber) : session.use name line = (.unchecked, session) := by
  rw [use, if_pos (List.contains_iff_mem.mpr h)]

/-- A use of a name without rows makes a diagnostic and does nothing else. -/
theorem use_of_unknown {session : Session} {name : String} (h : name ∉ builtinNames)
    (ho : session.symbols.oldestType? name = none) (line : LineNumber) :
    session.use name line = (.unchecked, session.report .undeclaredVariable line) := by
  have hf : session.symbols.firstNamed? name = none := Option.map_eq_none_iff.mp ho
  rw [use, if_neg (mt List.contains_iff_mem.mp h), hf]

/-- A use of a name with rows answers the oldest type and adds a sighting of it. -/
theorem use_of_known {session : Session} {name : String} {type : DeclaredType}
    (h : name ∉ builtinNames) (ho : session.symbols.oldestType? name = some type)
    (line : LineNumber) :
    session.use name line =
      (type.code, (session.recordSymbol (session.keyIn name session.scope) type line).2) := by
  obtain ⟨oldest, hf, rfl⟩ := Option.map_eq_some_iff.mp ho
  rw [use, if_neg (mt List.contains_iff_mem.mp h), hf]

end Session

end SemanticPass
