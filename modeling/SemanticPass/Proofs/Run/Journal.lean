import SemanticPass.Proofs.Run.FirstRecording
import SemanticPass.Proofs.Run.Texts

/-!
# The diagnostics in the journal

A session notes each diagnostic in its journal when it makes it. So the journal has the diagnostics
of the session, once each and in the order in which they were made. Every other note is for
debugging, so the warnings that the journal gives the log are the diagnostics.
-/

namespace SemanticPass

/-- The diagnostic that a note is about. -/
def Note.diagnostic? : Note → Option Diagnostic
  | .reported diagnostic => some diagnostic
  | _ => none

/-- The warning that a diagnostic gives the log. -/
def Diagnostic.warning (diagnostic : Diagnostic) : LogRecord :=
  { severity := .warn, target := "c_sema::session", message := diagnostic.text }

/-- The warnings among the log records of notes are those of their diagnostics. -/
theorem Note.filter_warn_map_toRecord (notes : List Note) :
    (notes.map toRecord).filter (fun entry => entry.severity = .warn) =
      (notes.filterMap diagnostic?).map Diagnostic.warning := by
  induction notes with
  | nil => rfl
  | cons note notes ih =>
      rw [List.map_cons, List.filter_cons, List.filterMap_cons, ih]
      cases note <;> rfl

namespace Session

/-- The journal of a session has its diagnostics, once each and in order. -/
def Journaled (session : Session) : Prop :=
  session.journal.toList.filterMap Note.diagnostic? = session.diagnostics.toList

variable {session : Session}

/-! ## Operations -/

namespace Journaled

theorem start (sourceName : String) : (Session.start sourceName).Journaled := by
  rw [Journaled]
  rfl

/-- A note that is about no diagnostic makes no difference. -/
theorem log (h : session.Journaled) {note : Note} (hnote : note.diagnostic? = none) :
    (session.log note).Journaled := by
  rw [Journaled, Session.log, Array.toList_push, List.filterMap_append, h]
  simp [hnote]

theorem logCreated (h : session.Journaled) (recorded : Recorded) {note : Note}
    (hnote : note.diagnostic? = none) : (session.logCreated recorded note).Journaled := by
  cases recorded with
  | created => exact h.log hnote
  | appended => exact h

theorem report (h : session.Journaled) (kind : DiagnosticKind) (line : LineNumber) :
    (session.report kind line).Journaled := by
  rw [Journaled, Session.report, Array.toList_push, Array.toList_push, List.filterMap_append, h]
  rfl

theorem recordSymbol (h : session.Journaled) (key : SymbolKey) (type : DeclaredType)
    (line : LineNumber) : (session.recordSymbol key type line).2.Journaled := by
  have hsame : Session.Journaled
      { session with symbols := (session.symbols.record key type line).2 } := h
  exact hsame.logCreated _ rfl

theorem addConstant (h : session.Journaled) (literal : String) (line : LineNumber) :
    (session.addConstant literal line).Journaled := by
  have hsame : Session.Journaled
      { session with constants := (session.constants.add literal line).2 } := h
  exact hsame.logCreated _ rfl

theorem classify (h : session.Journaled) (lexeme : String) (tag : Char) (line : LineNumber) :
    (session.classify lexeme tag line).2.Journaled := by
  unfold Session.classify
  cases TokenCategory.ofTag? tag with
  | none => exact h
  | some category =>
      have hsame : Session.Journaled
          { session with tokens := (session.tokens.classify lexeme category line).2 } := h
      exact hsame.logCreated _ rfl

theorem setTypeTag (h : session.Journaled) (tag : Char) :
    (session.setTypeTag tag).2.Journaled := by
  unfold Session.setTypeTag
  cases DeclaredType.ofTag? tag with
  | none => exact h
  | some type => exact h

theorem exitScope (h : session.Journaled) : session.exitScope.2.Journaled := by
  unfold Session.exitScope
  split
  · exact h
  · exact h

theorem enterFunction (h : session.Journaled) : session.enterFunction.Journaled := by
  have hsame : Session.Journaled { session with function := session.function + 1 } := h
  exact hsame.log rfl

theorem recordDeclaration (h : session.Journaled) (name : String) (line : LineNumber)
    (scope : ScopeId) : (session.recordDeclaration name line scope).2.Journaled := by
  cases hp : session.pendingType with
  | none => rwa [recordDeclaration_of_unset hp]
  | some type =>
      rw [recordDeclaration_of_pending hp]
      exact h.recordSymbol ..

theorem declare (h : session.Journaled) (name : String) (line : LineNumber) (scope : ScopeId) :
    (session.declare name line scope).2.Journaled := by
  cases hp : session.pendingType with
  | none => rwa [declare_of_unset hp]
  | some type =>
      cases hk : session.symbols.declaredType? (session.keyIn name scope) with
      | none =>
          rw [declare_of_new hp hk]
          exact h.recordSymbol ..
      | some previous =>
          rw [declare_of_known hp hk]
          exact h.report ..

theorem use (h : session.Journaled) (name : String) (line : LineNumber) :
    (session.use name line).2.Journaled := by
  by_cases hb : name ∈ builtinNames
  · rwa [use_of_builtin hb]
  · cases ho : session.symbols.oldestType? name with
    | none =>
        rw [use_of_unknown hb ho]
        exact h.report ..
    | some type =>
        rw [use_of_known hb ho]
        exact h.recordSymbol ..

theorem checkType (h : session.Journaled) (actual expected : TypeCode) (line : LineNumber) :
    (session.checkType actual expected line).Journaled := by
  have hsame : Session.Journaled { session with expectedType := defaultExpectedType } := h
  rw [checkType_eq]
  by_cases hc : actual = if expected = .unchecked then session.expectedType else expected
  · rwa [if_pos hc]
  · rw [if_neg hc]
    exact hsame.report ..

theorem checkIndex (h : session.Journaled) (index : Int64) (line : LineNumber) :
    (session.checkIndex index line).Journaled := by
  unfold Session.checkIndex
  split
  · exact h.report ..
  · exact h

end Journaled

end Session

/-! ## Runs -/

/-- A turn notes the diagnostic that it makes. -/
theorem Turn.journaled_next {turn : Turn} (h : turn.replay.session.Journaled) :
    turn.next.session.Journaled := by
  obtain ⟨⟨session, lastResolved⟩, event⟩ := turn
  cases event with
  | token tag line lexeme => exact Session.Journaled.classify h ..
  | constant line literal => exact Session.Journaled.addConstant h ..
  | beginType tag => exact Session.Journaled.setTypeTag h tag
  | declare line name => exact Session.Journaled.declare h ..
  | record line name => exact Session.Journaled.recordDeclaration h ..
  | use line name => exact Session.Journaled.use h ..
  | check actual expected line =>
      cases actual with
      | code actual => exact Session.Journaled.checkType h ..
      | lastResolved => exact Session.Journaled.checkType h ..
  | index value line => exact Session.Journaled.checkIndex h ..
  | exitScope => exact Session.Journaled.exitScope h
  | enterFunction => exact Session.Journaled.enterFunction h
  -- The other events set a field that is neither the journal nor the diagnostics.
  | endType => exact h
  | expect code => exact h
  | enterScope => exact h

/-- The journal has the diagnostics throughout a run. -/
theorem Replay.journaled_after (sourceName : String) (events : List Event) :
    ((start sourceName).after events).session.Journaled :=
  after_induction (P := fun replay => replay.session.Journaled) (fun _ => Turn.journaled_next)
    (.start sourceName) events

/-- The warnings that the journal of a replayed text gives the log are the diagnostics. -/
theorem Replay.warnings_journal_run (sourceName trace : String) :
    let session := ((start sourceName).run trace).2.session
    (session.journal.toList.map Note.toRecord).filter (fun entry => entry.severity = .warn) =
      session.diagnostics.toList.map Diagnostic.warning := by
  obtain ⟨events, hrun, -⟩ := exists_events_of_run (start sourceName) trace
  intro session
  have hjournaled : session.Journaled := by
    have h := journaled_after sourceName events
    rwa [← hrun] at h
  rw [Note.filter_warn_map_toRecord, hjournaled]

end SemanticPass
