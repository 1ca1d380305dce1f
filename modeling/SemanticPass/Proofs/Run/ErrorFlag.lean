import SemanticPass.Proofs.Run.FirstFault
import SemanticPass.Proofs.Run.Resolution

/-!
# The error flag and the diagnostics

A session says in two places that something was complained about: its flag is set, and its list of
diagnostics is not empty. One operation writes both and none takes either back, so they agree
whatever operations are called and whatever events are applied. An event makes one diagnostic at
most, and only if it declares, uses, checks or indexes.
-/

namespace SemanticPass

namespace Session

/-- A call of an operation of a session. An event comes with the answer to the last use that its
replay holds, and the symbol table can be written by others. -/
inductive Operation where
  | enterScope
  | exitScope
  | enterFunction
  | setType (type : DeclaredType)
  | setTypeTag (tag : Char)
  | clearType
  | setExpectedType (code : TypeCode)
  | takeExpectedType
  | report (kind : DiagnosticKind) (line : LineNumber)
  | addConstant (literal : String) (line : LineNumber)
  | classify (lexeme : String) (tag : Char) (line : LineNumber)
  | recordSymbol (key : SymbolKey) (type : DeclaredType) (line : LineNumber)
  | writeSymbols (symbols : SymbolTable)
  | recordDeclaration (name : String) (line : LineNumber) (scope : ScopeId)
  | declare (name : String) (line : LineNumber) (scope : ScopeId)
  | use (name : String) (line : LineNumber)
  | checkType (actual expected : TypeCode) (line : LineNumber)
  | checkIndex (index : Int64) (line : LineNumber)
  | apply (lastResolved : TypeCode) (event : Event)

/-- The session after an operation, refused or not. -/
def perform (session : Session) : Operation → Session
  | .enterScope => session.enterScope
  | .exitScope => session.exitScope.2
  | .enterFunction => session.enterFunction
  | .setType type => session.setType type
  | .setTypeTag tag => (session.setTypeTag tag).2
  | .clearType => session.clearType
  | .setExpectedType code => session.setExpectedType code
  | .takeExpectedType => session.takeExpectedType.2
  | .report kind line => session.report kind line
  | .addConstant literal line => session.addConstant literal line
  | .classify lexeme tag line => (session.classify lexeme tag line).2
  | .recordSymbol key type line => (session.recordSymbol key type line).2
  | .writeSymbols symbols => { session with symbols }
  | .recordDeclaration name line scope => (session.recordDeclaration name line scope).2
  | .declare name line scope => (session.declare name line scope).2
  | .use name line => (session.use name line).2
  | .checkType actual expected line => session.checkType actual expected line
  | .checkIndex index line => session.checkIndex index line
  | .apply lastResolved event => (Replay.apply { session, lastResolved } event).2.session

/-- The session after operations, one after the other. -/
def performAll (session : Session) (operations : List Operation) : Session :=
  operations.foldl perform session

/-- What an operation does to the diagnostics of a session: it puts one about the source at their
end and sets the flag, or it leaves both as they are. -/
structure Extends (before : Session) (complaint? : Option Diagnostic) (after : Session) : Prop where
  /-- The source keeps its name. -/
  source : after.sourceName = before.sourceName
  /-- The flag is set with a complaint, and not taken back. -/
  flag : after.hasError = (before.hasError || complaint?.isSome)
  /-- The complaint is the last diagnostic. -/
  diagnostics : after.diagnostics = before.diagnostics ++ complaint?.toArray
  /-- The complaint is about the source. -/
  about : ∀ complaint ∈ complaint?, complaint.sourceName = before.sourceName

/-- The flag says whether there are diagnostics, and these are about the source. -/
structure Agrees (session : Session) : Prop where
  /-- The flag is set exactly if there are diagnostics. -/
  flag : session.hasError = true ↔ session.diagnostics ≠ #[]
  /-- Every diagnostic is about the source. -/
  about : ∀ diagnostic ∈ session.diagnostics, diagnostic.sourceName = session.sourceName

variable {session before after : Session} {complaint? : Option Diagnostic}

/-! ## Operations -/

/-- An operation that writes neither the diagnostics nor the flag makes no complaint. -/
theorem extends_none (hs : after.sourceName = before.sourceName)
    (hf : after.hasError = before.hasError) (hd : after.diagnostics = before.diagnostics) :
    before.Extends none after where
  source := hs
  flag := by simpa using hf
  diagnostics := by simpa using hd
  about := by simp

theorem extends_report (session : Session) (kind : DiagnosticKind) (line : LineNumber) :
    session.Extends (some (.report session.sourceName kind line)) (session.report kind line) where
  source := rfl
  flag := by simp [report]
  diagnostics := rfl
  about := by simp

theorem extends_recordSymbol (session : Session) (key : SymbolKey) (type : DeclaredType)
    (line : LineNumber) : session.Extends none (session.recordSymbol key type line).2 := by
  rw [recordSymbol_eq]
  exact extends_none rfl rfl rfl

theorem extends_addConstant (session : Session) (literal : String) (line : LineNumber) :
    session.Extends none (session.addConstant literal line) := by
  rw [addConstant_eq]
  exact extends_none rfl rfl rfl

theorem extends_classify (session : Session) (lexeme : String) (tag : Char) (line : LineNumber) :
    session.Extends none (session.classify lexeme tag line).2 := by
  cases h : TokenCategory.ofTag? tag with
  | none =>
      rw [classify_of_unknown h]
      exact extends_none rfl rfl rfl
  | some category =>
      rw [classify_of_known h]
      exact extends_none rfl rfl rfl

theorem extends_setTypeTag (session : Session) (tag : Char) :
    session.Extends none (session.setTypeTag tag).2 := by
  unfold setTypeTag
  split
  · exact extends_none rfl rfl rfl
  · exact extends_none rfl rfl rfl

theorem extends_exitScope (session : Session) : session.Extends none session.exitScope.2 := by
  unfold exitScope
  split
  · exact extends_none rfl rfl rfl
  · exact extends_none rfl rfl rfl

theorem extends_recordDeclaration (session : Session) (name : String) (line : LineNumber)
    (scope : ScopeId) : session.Extends none (session.recordDeclaration name line scope).2 := by
  cases hp : session.pendingType with
  | none =>
      rw [recordDeclaration_of_unset hp]
      exact extends_none rfl rfl rfl
  | some type =>
      rw [recordDeclaration_of_pending hp]
      apply extends_recordSymbol

theorem exists_extends_declare (session : Session) (name : String) (line : LineNumber)
    (scope : ScopeId) :
    ∃ complaint?, session.Extends complaint? (session.declare name line scope).2 := by
  cases hp : session.pendingType with
  | none =>
      rw [declare_of_unset hp]
      exact ⟨none, extends_none rfl rfl rfl⟩
  | some type =>
      cases hk : session.symbols.declaredType? (session.keyIn name scope) with
      | none =>
          rw [declare_of_new hp hk]
          exact ⟨none, extends_recordSymbol ..⟩
      | some previous =>
          rw [declare_of_known hp hk]
          exact ⟨_, extends_report ..⟩

theorem exists_extends_use (session : Session) (name : String) (line : LineNumber) :
    ∃ complaint?, session.Extends complaint? (session.use name line).2 := by
  by_cases hb : name ∈ builtinNames
  · rw [use_of_builtin hb]
    exact ⟨none, extends_none rfl rfl rfl⟩
  · cases ho : session.symbols.oldestType? name with
    | none =>
        rw [use_of_unknown hb ho]
        exact ⟨_, extends_report ..⟩
    | some type =>
        rw [use_of_known hb ho]
        exact ⟨none, extends_recordSymbol ..⟩

theorem exists_extends_checkType (session : Session) (actual expected : TypeCode)
    (line : LineNumber) :
    ∃ complaint?, session.Extends complaint? (session.checkType actual expected line) := by
  rw [checkType_eq]
  by_cases hc : actual = if expected = .unchecked then session.expectedType else expected
  · rw [if_pos hc]
    exact ⟨none, extends_none rfl rfl rfl⟩
  · rw [if_neg hc]
    -- Taking the expected type out touches neither the flag nor the diagnostics.
    obtain ⟨hsource, hflag, hdiagnostics, habout⟩ :=
      extends_report { session with expectedType := defaultExpectedType } .typeMismatch line
    exact ⟨_, hsource, hflag, hdiagnostics, habout⟩

theorem exists_extends_checkIndex (session : Session) (index : Int64) (line : LineNumber) :
    ∃ complaint?, session.Extends complaint? (session.checkIndex index line) := by
  unfold checkIndex
  split
  · exact ⟨_, extends_report ..⟩
  · exact ⟨none, extends_none rfl rfl rfl⟩

end Session

/-! ## Events -/

namespace Turn

variable {turn : Turn}

/-- The diagnostic that the event of a turn makes: a declaration of a key that has a type, at its
own line, and the use of a name without rows, a check of different codes and a negative index, each
at the line before its own, or at line zero. -/
inductive Complains (turn : Turn) : Diagnostic → Prop where
  | declare {line : LineNumber} {name : String} {type previous : DeclaredType}
      (he : turn.event = .declare line name) (hp : turn.pendingType = some type)
      (hk : turn.replay.session.symbols.declaredType? (turn.key name) = some previous) :
      Complains turn
        { sourceName := turn.replay.session.sourceName
          line
          kind := .multipleDeclaration (previous == type) }
  | use {line : LineNumber} {name : String} (he : turn.event = .use line name)
      (hb : name ∉ builtinNames) (ho : turn.replay.session.symbols.firstNamed? name = none) :
      Complains turn
        { sourceName := turn.replay.session.sourceName
          line := .ofNat (line.toNat - 1)
          kind := .undeclaredVariable }
  | check {actual : ActualType} {expected : TypeCode} {line : LineNumber}
      (he : turn.event = .check actual expected line)
      (hne : turn.operand actual ≠ turn.wanted expected) :
      Complains turn
        { sourceName := turn.replay.session.sourceName
          line := .ofNat (line.toNat - 1)
          kind := .typeMismatch }
  | index {value : Int64} {line : LineNumber} (he : turn.event = .index value line)
      (hneg : value < 0) :
      Complains turn
        { sourceName := turn.replay.session.sourceName
          line := .ofNat (line.toNat - 1)
          kind := .arrayIndex }

/-- A complaint about a use, a check or an index is reported at the line before its own. -/
theorem report_before {kind : DiagnosticKind} (h : ∀ sameType, kind ≠ .multipleDeclaration sameType)
    (sourceName : String) (line : LineNumber) :
    Diagnostic.report sourceName kind line =
      { sourceName, line := .ofNat (line.toNat - 1), kind } := by
  rw [← DiagnosticKind.reportedLine_eq kind h line]
  rfl

/-- What a turn adds to the diagnostics is what its event complains about. -/
theorem complains_iff {complaint : Diagnostic} :
    turn.Complains complaint ↔ turn.diagnostic? = some complaint := by
  constructor
  · rintro (⟨he, hp, hk⟩ | ⟨he, hb, ho⟩ | ⟨he, hne⟩ | ⟨he, hneg⟩)
    · exact (declare_of_known he hp hk).1
    · have ho : turn.replay.session.symbols.oldestType? _ = none := Option.map_eq_none_iff.mpr ho
      rw [(use_of_unknown he hb ho).2.1, report_before (by simp)]
    · rw [← report_before (by simp)]
      simp [diagnostic?, he, hne]
    · rw [← report_before (by simp)]
      simp [diagnostic?, he, hneg]
  · intro h
    rcases diagnostic?_cases h with ⟨line, name, type, previous, he, hp, hk, rfl⟩ |
      ⟨line, name, he, hb, ho, rfl⟩ | ⟨actual, expected, line, he, hne, rfl⟩ |
      ⟨value, line, he, hneg, rfl⟩
    · exact .declare he hp hk
    · rw [report_before (by simp)]
      exact .use he hb (Option.map_eq_none_iff.mp ho)
    · rw [report_before (by simp)]
      exact .check he hne
    · rw [report_before (by simp)]
      exact .index he hneg

/-- A complaint is about the source of its session. -/
theorem Complains.sourceName_eq {complaint : Diagnostic} (h : turn.Complains complaint) :
    complaint.sourceName = turn.replay.session.sourceName := by
  cases h <;> rfl

/-- An event extends the diagnostics by its complaint. -/
theorem extends_next (turn : Turn) :
    turn.replay.session.Extends turn.diagnostic? turn.next.session where
  source := turn.sourceName_next
  flag := turn.hasError_next
  diagnostics := turn.diagnostics_next
  about := fun _ hmem => (complains_iff.mpr hmem).sourceName_eq

/-- An event that is refused makes no complaint. -/
theorem diagnostic?_of_refusal {violation : Violation}
    (h : (turn.replay.apply turn.event).1 = .error violation) : turn.diagnostic? = none := by
  have hsame : turn.next = turn.replay := Replay.apply_of_error h
  have hsize := congrArg Array.size turn.diagnostics_next
  rw [hsame] at hsize
  cases hd : turn.diagnostic? with
  | none => rfl
  | some complaint => simp [hd] at hsize

end Turn

/-! ## Sequences of operations -/

namespace Session

variable {session before after : Session} {complaint? : Option Diagnostic}

/-- Every operation makes one complaint at most, and sets the flag with it. -/
theorem exists_extends_perform (session : Session) (operation : Operation) :
    ∃ complaint?, session.Extends complaint? (session.perform operation) := by
  cases operation with
  | exitScope => exact ⟨none, session.extends_exitScope⟩
  | setTypeTag tag => exact ⟨none, session.extends_setTypeTag tag⟩
  | report kind line => exact ⟨_, session.extends_report kind line⟩
  | addConstant literal line => exact ⟨none, session.extends_addConstant literal line⟩
  | classify lexeme tag line => exact ⟨none, session.extends_classify lexeme tag line⟩
  | recordSymbol key type line => exact ⟨none, session.extends_recordSymbol key type line⟩
  | recordDeclaration name line scope =>
      exact ⟨none, session.extends_recordDeclaration name line scope⟩
  | declare name line scope => exact session.exists_extends_declare name line scope
  | use name line => exact session.exists_extends_use name line
  | checkType actual expected line => exact session.exists_extends_checkType actual expected line
  | checkIndex index line => exact session.exists_extends_checkIndex index line
  | apply lastResolved event => exact ⟨_, Turn.extends_next ⟨{ session, lastResolved }, event⟩⟩
  -- The other operations set one field, which is neither the flag nor the diagnostics.
  | _ => exact ⟨none, extends_none rfl rfl rfl⟩

/-- Flag and diagnostics agree after a complaint if they agreed before. -/
theorem Extends.agrees (h : before.Extends complaint? after) (ha : before.Agrees) :
    after.Agrees := by
  constructor
  · rw [h.flag, h.diagnostics, Bool.or_eq_true, ha.flag]
    cases complaint? <;> simp
  · intro diagnostic hmem
    rw [h.diagnostics, Array.mem_append] at hmem
    rw [h.source]
    rcases hmem with hmem | hmem
    · exact ha.about diagnostic hmem
    · exact h.about diagnostic (by simpa using hmem)

theorem agrees_start (sourceName : String) : (start sourceName).Agrees where
  flag := by simp [start]
  about := by simp [start]

theorem performAll_append (session : Session) (operations more : List Operation) :
    session.performAll (operations ++ more) = (session.performAll operations).performAll more :=
  List.foldl_append

/-- What every operation keeps, operations one after the other keep. -/
theorem performAll_induction {P : Session → Prop}
    (step : ∀ session operation, P session → P (session.perform operation)) (h : P session)
    (operations : List Operation) : P (session.performAll operations) := by
  induction operations generalizing session with
  | nil => exact h
  | cons operation operations ih => exact ih (step session operation h)

/-- No operation takes a diagnostic back or changes one, or renames the source. -/
theorem diagnostics_prefix_performAll (session : Session) (operations : List Operation) :
    (session.performAll operations).sourceName = session.sourceName ∧
      session.diagnostics.toList <+: (session.performAll operations).diagnostics.toList := by
  apply performAll_induction (P := fun later =>
    later.sourceName = session.sourceName ∧ session.diagnostics.toList <+: later.diagnostics.toList)
  · rintro earlier operation ⟨hsource, hprefix⟩
    obtain ⟨complaint?, h⟩ := earlier.exists_extends_perform operation
    refine ⟨h.source.trans hsource, hprefix.trans ?_⟩
    rw [h.diagnostics, Array.toList_append]
    apply List.prefix_append
  · exact ⟨rfl, List.prefix_refl _⟩

/-- Whatever operations were called and events applied, the flag is set exactly if there are
diagnostics, these are about the source, and no later operation changes them. In whatever state, an
event adds the one diagnostic that it complains with, or none, and it adds none if it is refused. -/
theorem flag_agrees_with_diagnostics (sourceName : String) :
    (∀ operations,
      let session := (start sourceName).performAll operations
      session.sourceName = sourceName ∧
      (session.hasError = true ↔ session.diagnostics ≠ #[]) ∧
      (∀ diagnostic ∈ session.diagnostics, diagnostic.sourceName = sourceName) ∧
      ∀ more, session.diagnostics.toList <+:
        ((start sourceName).performAll (operations ++ more)).diagnostics.toList) ∧
    ∀ turn : Turn, ∃ complaint? : Option Diagnostic,
      turn.next.session.diagnostics = turn.replay.session.diagnostics ++ complaint?.toArray ∧
      turn.next.session.hasError = (turn.replay.session.hasError || complaint?.isSome) ∧
      (∀ complaint, complaint? = some complaint ↔ turn.Complains complaint) ∧
      ∀ violation, (turn.replay.apply turn.event).1 = .error violation → complaint? = none := by
  constructor
  · intro operations session
    have hsource : session.sourceName = sourceName :=
      (diagnostics_prefix_performAll (start sourceName) operations).1
    have hagrees : session.Agrees := by
      apply performAll_induction (P := Agrees)
      · intro earlier operation ha
        obtain ⟨complaint?, h⟩ := earlier.exists_extends_perform operation
        exact h.agrees ha
      · exact agrees_start sourceName
    refine ⟨hsource, hagrees.flag, ?_, ?_⟩
    · intro diagnostic hmem
      exact (hagrees.about diagnostic hmem).trans hsource
    · intro more
      rw [performAll_append]
      exact (diagnostics_prefix_performAll session more).2
  · intro turn
    refine ⟨turn.diagnostic?, turn.diagnostics_next, turn.hasError_next, ?_, ?_⟩
    · exact fun complaint => Turn.complains_iff.symm
    · exact fun violation h => Turn.diagnostic?_of_refusal h

end Session

end SemanticPass
