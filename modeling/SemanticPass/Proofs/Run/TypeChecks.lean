import SemanticPass.Proofs.Run.Resolution

/-!
# Operands of type checks

A check compares two codes that may come from earlier events. The one compared is the answer to
the last use, wherever it was; the one asked for is that of the last expectation, but only if no
check stands between. Both are read off the history of the run here, without the places where a
replay keeps them.
-/

namespace SemanticPass

/-- The code that an event expects of the next check. -/
def Event.expectation? : Event → Option TypeCode
  | .expect code => some code
  | _ => none

/-- Whether an event is a check. -/
def Event.isCheck : Event → Bool
  | .check .. => true
  | _ => false

/-- The code of the last expectation among events, if no check comes after it. -/
def openExpectation? (events : List Event) : Option TypeCode :=
  (events.reverse.takeWhile fun event => !event.isCheck).findSome? Event.expectation?

theorem openExpectation?_concat (events : List Event) (event : Event) :
    openExpectation? (events ++ [event]) =
      if event.isCheck then none else event.expectation?.or (openExpectation? events) := by
  rw [openExpectation?, List.reverse_append, List.reverse_singleton, List.singleton_append]
  by_cases hc : event.isCheck = true
  · simp [hc]
  · rw [List.takeWhile_cons_of_pos (by simpa using hc), List.findSome?_cons, if_neg hc]
    cases event.expectation? <;> rfl

example : openExpectation? [.expect 4, .check (.code 1) 2 9, .expect 0] = some 0 := rfl

namespace Turn

/-- What the use of a turn is answered; no other event has an answer. -/
def answer? (turn : Turn) : Option TypeCode :=
  match turn.event with
  | .use line name => some (turn.replay.session.use name line).1
  | _ => none

/-- A use sets the last resolved code to its answer, and no other event sets it. -/
theorem lastResolved_next_eq_answer? (turn : Turn) :
    turn.next.lastResolved = turn.answer?.getD turn.replay.lastResolved := by
  rw [lastResolved_next]
  cases hevent : turn.event with
  | use line name =>
      rw [← lastResolved_next, next, hevent, answer?, hevent]
      rfl
  | _ => simp [nextResolved, answer?, hevent]

theorem expectedType_next (turn : Turn) :
    turn.next.session.expectedType = turn.nextExpected := by rw [next_eq]

/-- An expectation sets the expected code and a check puts the default back. -/
theorem expectedType_next_eq (turn : Turn) :
    turn.next.session.expectedType =
      if turn.event.isCheck then defaultExpectedType
      else turn.event.expectation?.getD turn.replay.session.expectedType := by
  rw [expectedType_next, nextExpected]
  cases turn.event <;> rfl

/-- A check puts the default back and reports a mismatch; all else stays. -/
theorem next_check {turn : Turn} {actual : ActualType} {expected : TypeCode} {line : LineNumber}
    (he : turn.event = .check actual expected line) :
    turn.next.session.diagnostics =
        (if turn.operand actual = turn.wanted expected then turn.replay.session.diagnostics
        else turn.replay.session.diagnostics.push
          (.report turn.replay.session.sourceName .typeMismatch line)) ∧
      turn.next.session.symbols = turn.replay.session.symbols ∧
      turn.next.session.constants = turn.replay.session.constants ∧
      turn.next.session.tokens = turn.replay.session.tokens ∧
      turn.next.session.pendingType = turn.replay.session.pendingType := by
  refine ⟨?_, ?_, ?_, ?_, ?_⟩
  · rw [diagnostics_next, diagnostic?, he]
    by_cases hc : turn.operand actual = turn.wanted expected <;> simp [hc]
  · rw [symbols_next, sighting?, he]
    rfl
  · rw [constants_next, nextConstants, he]
  · rw [tokens_next, nextTokens, he]
  · rw [pendingType_next, nextType, he]
    rfl

end Turn

namespace Replay

/-- The last resolved code is the answer to the last use of the run, or zero without one. -/
theorem lastResolved_after (sourceName : String) (events : List Event) :
    ((start sourceName).after events).lastResolved =
      (((start sourceName).turns events).reverse.findSome? Turn.answer?).getD .unchecked := by
  induction events using List.reverseRecOn with
  | nil => rfl
  | append_singleton events event ih =>
      rw [after_concat, Turn.lastResolved_next_eq_answer?, turns_concat, List.reverse_append,
        List.reverse_singleton, List.singleton_append, List.findSome?_cons]
      cases ha : Turn.answer? { replay := (start sourceName).after events, event } with
      | none => exact ih
      | some code => rfl

/-- The expected code is that of the last expectation after the last check, or the default. -/
theorem expectedType_after (sourceName : String) (events : List Event) :
    ((start sourceName).after events).session.expectedType =
      (openExpectation? events).getD defaultExpectedType := by
  induction events using List.reverseRecOn with
  | nil => rfl
  | append_singleton events event ih =>
      rw [after_concat, Turn.expectedType_next_eq, openExpectation?_concat, ih]
      split
      · rfl
      · cases event.expectation? <;> rfl

/-- A use of a builtin name, or of a name that nothing introduced before, is answered with zero. -/
theorem answer?_use (sourceName : String) (events : List Event) (line : LineNumber)
    {name : String}
    (h : name ∈ builtinNames ∨ (start sourceName).introduction? events name = none) :
    Turn.answer? { replay := (start sourceName).after events, event := .use line name } =
      some .unchecked := by
  by_cases hb : name ∈ builtinNames
  · exact congrArg (fun answer => some answer.1) (Session.use_of_builtin hb line)
  · have ho : ((start sourceName).after events).session.symbols.oldestType? name = none := by
      rw [oldestType?_after, h.resolve_left hb]
      rfl
    exact congrArg (fun answer => some answer.1) (Session.use_of_unknown hb ho line)

/-- What a check reports and changes after any history. -/
theorem check_after (sourceName : String) (events : List Event) (actual : ActualType)
    (expected : TypeCode) (line : LineNumber) :
    let turn : Turn :=
      { replay := (start sourceName).after events, event := .check actual expected line }
    let before := turn.replay.session
    let after := turn.next.session
    let compared := match actual with
      | .code code => code
      | .lastResolved => (((start sourceName).turns events).reverse.findSome? Turn.answer?).getD 0
    let wanted := if expected ≠ 0 then expected else (openExpectation? events).getD 3
    turn.succeeds = true ∧
    after.diagnostics =
      (if compared = wanted then before.diagnostics
      else before.diagnostics.push
        { sourceName, line := .ofNat (line.toNat - 1), kind := .typeMismatch }) ∧
    after.symbols = before.symbols ∧ after.constants = before.constants ∧
    after.tokens = before.tokens ∧ after.pendingType = before.pendingType ∧
    after.expectedType = 3 ∧
    (∀ other : Turn, other.event.isCheck = false → other.event.expectation? = none →
      other.next.session.expectedType = other.replay.session.expectedType) ∧
    ∀ earlier line' name,
      name ∈ builtinNames ∨ (start sourceName).introduction? earlier name = none →
        Turn.answer? { replay := (start sourceName).after earlier, event := .use line' name } =
          some 0 := by
  intro turn before after compared wanted
  have hevent : turn.event = .check actual expected line := rfl
  have hsource : before.sourceName = sourceName := sourceName_after sourceName events
  have hcompared : turn.operand actual = compared := by
    cases actual with
    | code code => rfl
    | lastResolved => exact lastResolved_after sourceName events
  have hwanted : turn.wanted expected = wanted := by
    have hslot : before.expectedType = (openExpectation? events).getD 3 :=
      expectedType_after sourceName events
    show (if expected = 0 then before.expectedType else expected) = wanted
    rw [hslot]
    by_cases he : expected = 0 <;> simp [wanted, he]
  obtain ⟨hdiagnostics, hsymbols, hconstants, htokens, hpending⟩ := Turn.next_check hevent
  refine ⟨?_, ?_, hsymbols, hconstants, htokens, hpending, ?_, ?_, ?_⟩
  · rw [Turn.succeeds_eq]
    rfl
  · rw [← DiagnosticKind.reportedLine_eq .typeMismatch nofun, ← hcompared, ← hwanted, ← hsource]
    exact hdiagnostics
  · rw [Turn.expectedType_next_eq]
    rfl
  · intro other hcheck hexpect
    rw [Turn.expectedType_next_eq, hcheck, hexpect]
    rfl
  · intro earlier line' name h
    exact answer?_use sourceName earlier line' h

end Replay

end SemanticPass
