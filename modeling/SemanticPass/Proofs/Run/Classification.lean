import SemanticPass.Proofs.Run.ErrorFlag
import SemanticPass.Proofs.Table.Tokens

/-!
# The first classification of a lexeme stands

The token table of a session is what its classifications under known tags make of it: no other
operation writes it, and a classification under an unknown tag does nothing. A lexeme keeps the
category that it was given first. A later classification under another tag is answered with the
category of that tag all the same, and only adds its line.
-/

namespace SemanticPass.Session

/-- What an operation classifies, if it classifies anything under a known tag. -/
def Operation.classification? : Operation → Option Classification
  | .classify lexeme tag line | .apply _ (.token tag line lexeme) =>
    (TokenCategory.ofTag? tag).map fun category => { lexeme, category, line }
  | _ => none

/-! ## Operations on other parts of a session -/

theorem tokens_recordSymbol (session : Session) (key : SymbolKey) (type : DeclaredType)
    (line : LineNumber) : (session.recordSymbol key type line).2.tokens = session.tokens := by
  rw [recordSymbol_eq]

theorem tokens_recordDeclaration (session : Session) (name : String) (line : LineNumber)
    (scope : ScopeId) : (session.recordDeclaration name line scope).2.tokens = session.tokens := by
  cases hp : session.pendingType with
  | none => rw [recordDeclaration_of_unset hp]
  | some type => rw [recordDeclaration_of_pending hp, tokens_recordSymbol]

theorem tokens_declare (session : Session) (name : String) (line : LineNumber) (scope : ScopeId) :
    (session.declare name line scope).2.tokens = session.tokens := by
  cases hp : session.pendingType with
  | none => rw [declare_of_unset hp]
  | some type =>
      cases hk : session.symbols.declaredType? (session.keyIn name scope) with
      | none => rw [declare_of_new hp hk, tokens_recordSymbol]
      | some previous =>
          rw [declare_of_known hp hk]
          rfl

theorem tokens_use (session : Session) (name : String) (line : LineNumber) :
    (session.use name line).2.tokens = session.tokens := by
  by_cases hb : name ∈ builtinNames
  · rw [use_of_builtin hb]
  · cases ho : session.symbols.oldestType? name with
    | none =>
        rw [use_of_unknown hb ho]
        rfl
    | some type => rw [use_of_known hb ho, tokens_recordSymbol]

theorem tokens_setTypeTag (session : Session) (tag : Char) :
    (session.setTypeTag tag).2.tokens = session.tokens := by
  unfold setTypeTag
  split <;> rfl

theorem tokens_exitScope (session : Session) : session.exitScope.2.tokens = session.tokens := by
  unfold exitScope
  split <;> rfl

theorem tokens_checkType (session : Session) (actual expected : TypeCode) (line : LineNumber) :
    (session.checkType actual expected line).tokens = session.tokens := by
  rw [checkType_eq]
  split <;> split <;> rfl

theorem tokens_checkIndex (session : Session) (index : Int64) (line : LineNumber) :
    (session.checkIndex index line).tokens = session.tokens := by
  unfold checkIndex
  split <;> rfl

/-! ## Classifications -/

/-- A classification does to the token table what it does there under the category of its tag. -/
theorem tokens_classify (session : Session) (lexeme : String) (tag : Char) (line : LineNumber) :
    (session.classify lexeme tag line).2.tokens = session.tokens.classifyAll
      ((TokenCategory.ofTag? tag).map fun category =>
        Classification.mk lexeme category line).toList := by
  cases h : TokenCategory.ofTag? tag with
  | none =>
      rw [classify_of_unknown h]
      rfl
  | some category =>
      rw [classify_of_known h]
      rfl

/-- An event on a token is a classification, and no other event writes the token table. -/
theorem tokens_apply (session : Session) (lastResolved : TypeCode) (event : Event) :
    (session.perform (.apply lastResolved event)).tokens = session.tokens.classifyAll
      (Operation.apply lastResolved event).classification?.toList := by
  rw [perform, show (Replay.apply { session, lastResolved } event).2.session.tokens = _ from
    Turn.tokens_next ⟨{ session, lastResolved }, event⟩]
  cases event with
  | token tag line lexeme =>
      cases h : TokenCategory.ofTag? tag with
      | none => simp [Turn.nextTokens, Operation.classification?, h, TokenTable.classifyAll]
      | some category =>
          simp [Turn.nextTokens, Operation.classification?, h, TokenTable.classifyAll]
  | _ => rfl

theorem tokens_perform (session : Session) (operation : Operation) :
    (session.perform operation).tokens =
      session.tokens.classifyAll operation.classification?.toList := by
  cases operation with
  | classify lexeme tag line => exact session.tokens_classify lexeme tag line
  | apply lastResolved event => exact session.tokens_apply lastResolved event
  | exitScope => exact session.tokens_exitScope
  | setTypeTag tag => exact session.tokens_setTypeTag tag
  | addConstant literal line =>
      rw [perform, addConstant_eq]
      rfl
  | recordSymbol key type line => exact session.tokens_recordSymbol key type line
  | recordDeclaration name line scope => exact session.tokens_recordDeclaration name line scope
  | declare name line scope => exact session.tokens_declare name line scope
  | use name line => exact session.tokens_use name line
  | checkType actual expected line => exact session.tokens_checkType actual expected line
  | checkIndex index line => exact session.tokens_checkIndex index line
  -- The other operations set fields that the token table has no part in.
  | _ => rfl

/-- The token table of a session is what the classifications among its operations make of it. -/
theorem tokens_performAll (session : Session) (operations : List Operation) :
    (session.performAll operations).tokens =
      session.tokens.classifyAll (operations.filterMap Operation.classification?) := by
  induction operations generalizing session with
  | nil => rfl
  | cons operation operations ih =>
      rw [performAll, List.foldl_cons, ← performAll, ih, tokens_perform, TokenTable.classifyAll,
        TokenTable.classifyAll, ← List.foldl_append, ← TokenTable.classifyAll]
      congr 1
      cases h : operation.classification? <;> simp [h]

/-- After any classifications a table lists every lexeme under the category that came first, with
all its lines, and so does the table of a session after any operations on it. In a session, a
classification is answered with the category of its own tag, whatever category the table keeps, or
refused without any effect if its tag is unknown. -/
theorem first_classification_stands :
    (∀ calls, TokenTable.Lists calls (TokenTable.empty.classifyAll calls)) ∧
    ∀ (sourceName : String) (operations : List Operation),
      let session := (start sourceName).performAll operations
      TokenTable.Lists (operations.filterMap Operation.classification?) session.tokens ∧
      ∀ (lexeme : String) (tag : Char) (line : LineNumber),
        let after := session.classify lexeme tag line
        (∀ category, TokenCategory.ofTag? tag = some category →
          after.1 = .ok category ∧
          after.2.tokens = (session.tokens.classify lexeme category line).2 ∧
          after.2.tokens.category? lexeme =
            some ((session.tokens.category? lexeme).getD category)) ∧
        (TokenCategory.ofTag? tag = none → after = (.error (.unknownTokenTag tag), session)) := by
  refine ⟨TokenTable.lists_classifyAll, fun sourceName operations => ?_⟩
  intro session
  have hlists :
      TokenTable.Lists (operations.filterMap Operation.classification?) session.tokens := by
    rw [tokens_performAll]
    exact TokenTable.lists_classifyAll _
  refine ⟨hlists, fun lexeme tag line => ⟨fun category htag => ?known, fun htag => ?unknown⟩⟩
  case unknown => exact classify_of_unknown htag session lexeme line
  case known =>
    rw [classify_of_known htag]
    refine ⟨rfl, rfl, ?_⟩
    have hcreated := hlists.created_iff lexeme category line
    rw [TokenTable.classify_recorded, Occurrences.record_eq_created_iff,
      ← Classification.firstCategory?_eq_none_iff, ← hlists.category?_eq] at hcreated
    change (session.tokens.classify lexeme category line).2.category? lexeme = _
    rw [TokenTable.category?_classify]
    cases hc : session.tokens.category? lexeme with
    | none => rw [if_pos ⟨rfl, hcreated.mpr hc⟩]; rfl
    | some first => rw [if_neg fun hnew => by simp [hcreated.mp hnew.2] at hc]; rfl

/-- An identifier that is classified as a keyword later stays an identifier. -/
theorem first_classification_stands_of_keyword :
    let session := (start "a.c").performAll [.classify "x" 'v' 1]
    (session.classify "x" 'k' 2).1 = .ok .keyword ∧
      (session.classify "x" 'k' 2).2.tokens.category? "x" = some .identifier := by
  intro session
  obtain ⟨hlists, hnext⟩ := first_classification_stands.2 "a.c" [.classify "x" 'v' 1]
  obtain ⟨hanswer, -, hcategory⟩ := (hnext "x" 'k' 2).1 .keyword rfl
  refine ⟨hanswer, ?_⟩
  rw [hcategory, hlists.category?_eq]
  rfl

end SemanticPass.Session
