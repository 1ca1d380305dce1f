import SemanticPass.Proofs.Run.Turns
import SemanticPass.Proofs.Session.Operations

/-!
# What a turn does

Each part of a replay changes in its own way with an event: the scope and the function are
counted, the waiting types are set and taken, the tables record sightings, and diagnostics are
added at the end. `Turn.next_eq` puts the parts together, so that a statement on one part needs
no look at the others. A turn that is refused changes nothing.
-/

namespace SemanticPass

namespace Turn

/-! ## The parts -/

/-- Why the event of a turn is refused. -/
def refusal? (turn : Turn) : Option Violation :=
  match turn.event with
  | .token tag _ _ =>
    match TokenCategory.ofTag? tag with
    | none => some (.unknownTokenTag tag)
    | some _ => none
  | .beginType tag =>
    match DeclaredType.ofTag? tag with
    | none => some (.unknownTypeTag tag)
    | some _ => none
  | .declare line name | .record line name =>
    match turn.pendingType with
    | none => some (.missingDeclaredType name line)
    | some _ => none
  | .exitScope => if turn.replay.session.scope = 0 then some .scopeUnderflow else none
  | _ => none

/-- The scope after a turn; the global scope is not left. -/
def nextScope (turn : Turn) : ScopeId :=
  match turn.event with
  | .enterScope => turn.replay.session.scope + 1
  | .exitScope =>
    if turn.replay.session.scope = 0 then turn.replay.session.scope
    else turn.replay.session.scope - 1
  | _ => turn.replay.session.scope

/-- The function after a turn. -/
def nextFunction (turn : Turn) : FunctionId :=
  match turn.event with
  | .enterFunction => turn.replay.session.function + 1
  | _ => turn.replay.session.function

/-- The type that declarations give after a turn; an unknown tag leaves it. -/
def nextType (turn : Turn) : Option DeclaredType :=
  match turn.event with
  | .beginType tag => (DeclaredType.ofTag? tag).or turn.pendingType
  | .endType => none
  | _ => turn.pendingType

/-- The expected type after a turn; a check puts the default back. -/
def nextExpected (turn : Turn) : TypeCode :=
  match turn.event with
  | .expect code => code
  | .check .. => defaultExpectedType
  | _ => turn.replay.session.expectedType

/-- The code that a check compares. -/
def operand (turn : Turn) : ActualType → TypeCode
  | .code code => code
  | .lastResolved => turn.replay.lastResolved

/-- The code that a check asks for: its own one, or the expected one if that is zero. -/
def wanted (turn : Turn) (expected : TypeCode) : TypeCode :=
  if expected = .unchecked then turn.replay.session.expectedType else expected

/-- The diagnostic that a turn makes. -/
def diagnostic? (turn : Turn) : Option Diagnostic :=
  match turn.event with
  | .declare line name =>
    match turn.pendingType, turn.replay.session.symbols.declaredType? (turn.key name) with
    | some type, some previous =>
      some (.report turn.replay.session.sourceName (.multipleDeclaration (previous == type)) line)
    | _, _ => none
  | .use line name =>
    if name ∈ builtinNames then none
    else
      match turn.replay.session.symbols.oldestType? name with
      | none => some (.report turn.replay.session.sourceName .undeclaredVariable line)
      | some _ => none
  | .check actual expected line =>
    if turn.operand actual = turn.wanted expected then none
    else some (.report turn.replay.session.sourceName .typeMismatch line)
  | .index value line =>
    if value < 0 then some (.report turn.replay.session.sourceName .arrayIndex line) else none
  | _ => none

/-- What a turn adds to the symbol table. -/
def sighting? (turn : Turn) : Option Sighting :=
  match turn.event with
  | .declare line name =>
    match turn.replay.session.symbols.declaredType? (turn.key name) with
    | some _ => none
    | none => turn.pendingType.map fun type => { key := turn.key name, type, line }
  | .record line name => turn.pendingType.map fun type => { key := turn.key name, type, line }
  | .use line name =>
    if name ∈ builtinNames then none
    else (turn.replay.session.symbols.oldestType? name).map fun type =>
      { key := turn.key name, type, line }
  | _ => none

/-- The constant table after a turn. -/
def nextConstants (turn : Turn) : ConstantTable :=
  match turn.event with
  | .constant line literal => (turn.replay.session.constants.add literal line).2
  | _ => turn.replay.session.constants

/-- The token table after a turn; an unknown tag leaves it. -/
def nextTokens (turn : Turn) : TokenTable :=
  match turn.event with
  | .token tag line lexeme =>
    match TokenCategory.ofTag? tag with
    | none => turn.replay.session.tokens
    | some category => (turn.replay.session.tokens.classify lexeme category line).2
  | _ => turn.replay.session.tokens

/-- The last resolved code after a turn: a use sets it, to zero if it has no declaration. -/
def nextResolved (turn : Turn) : TypeCode :=
  match turn.event with
  | .use _ name =>
    if name ∈ builtinNames then .unchecked
    else
      match turn.replay.session.symbols.oldestType? name with
      | none => .unchecked
      | some type => type.code
  | _ => turn.replay.lastResolved

/-! ## The parts together -/

section

attribute [local simp] next nextScope nextFunction nextType nextExpected diagnostic? sighting?
  nextConstants nextTokens nextResolved pendingType key operand wanted Replay.apply Replay.settle
  Replay.proceed SymbolTable.sight Session.report

/-- The replay after a turn, part by part. -/
theorem next_eq (turn : Turn) :
    turn.next = {
      session := {
        sourceName := turn.replay.session.sourceName
        scope := turn.nextScope
        function := turn.nextFunction
        pendingType := turn.nextType
        expectedType := turn.nextExpected
        hasError := turn.replay.session.hasError || turn.diagnostic?.isSome
        diagnostics := turn.replay.session.diagnostics ++ turn.diagnostic?.toArray
        symbols := turn.replay.session.symbols.sight turn.sighting?
        constants := turn.nextConstants
        tokens := turn.nextTokens
        journal := turn.next.session.journal }
      lastResolved := turn.nextResolved } := by
  obtain ⟨⟨session, lastResolved⟩, event⟩ := turn
  cases event with
  | token tag line lexeme =>
      cases ht : TokenCategory.ofTag? tag with
      | none => simp [Session.classify, ht]
      | some category =>
          simp only [next, Replay.apply, Replay.settle]
          rw [Session.classify_of_known ht]
          simp [ht]
  | constant line literal =>
      simp only [next, Replay.apply, Replay.proceed]
      rw [Session.addConstant_eq]
      simp
  | beginType tag =>
      cases ht : DeclaredType.ofTag? tag <;> simp [Session.setTypeTag, Session.setType, ht]
  | declare line name =>
      cases hp : session.pendingType with
      | none =>
          have hd := Session.declare_of_unset hp name line session.scope
          cases hk : session.symbols.declaredType? (session.keyIn name session.scope) <;>
            cases session <;> cases hp <;> simp [hd, hk]
      | some type =>
          cases hk : session.symbols.declaredType? (session.keyIn name session.scope) with
          | none =>
              simp only [next, Replay.apply, Replay.settle]
              rw [Session.declare_of_new hp hk, Session.recordSymbol_eq]
              simp [hp, hk]
          | some previous => simp [Session.declare_of_known hp hk, hp, hk]
  | record line name =>
      cases hp : session.pendingType with
      | none =>
          have hd := Session.recordDeclaration_of_unset hp name line session.scope
          cases session
          cases hp
          simp [hd]
      | some type =>
          simp only [next, Replay.apply, Replay.settle]
          rw [Session.recordDeclaration_of_pending hp, Session.recordSymbol_eq]
          simp [hp]
  | use line name =>
      by_cases hb : name ∈ builtinNames
      · simp [Session.use_of_builtin hb, hb]
      · cases ho : session.symbols.oldestType? name with
        | none => simp [Session.use_of_unknown hb ho, hb, ho]
        | some type =>
            simp only [next, Replay.apply, Replay.proceed]
            rw [Session.use_of_known hb ho, Session.recordSymbol_eq]
            simp [hb, ho]
  | check actual expected line =>
      cases actual with
      | code actual =>
          by_cases hc : actual = if expected = .unchecked then session.expectedType else expected
          · simp [Session.checkType_eq, ← hc]
          · simp [Session.checkType_eq, hc]
      | lastResolved =>
          by_cases hc : lastResolved =
              if expected = .unchecked then session.expectedType else expected
          · simp [Session.checkType_eq, ← hc]
          · simp [Session.checkType_eq, hc]
  | index value line =>
      by_cases hv : value < 0 <;> simp [Session.checkIndex, hv]
  | exitScope =>
      by_cases hs : session.scope = 0
      · cases session
        cases hs
        simp [Session.exitScope]
      · simp [Session.exitScope, hs]
  | endType => simp [Session.clearType]
  | expect code => simp [Session.setExpectedType]
  | enterScope => simp [Session.enterScope]
  | enterFunction => simp [Session.enterFunction, Session.log]

theorem sourceName_next (turn : Turn) :
    turn.next.session.sourceName = turn.replay.session.sourceName := by rw [next_eq]

theorem scope_next (turn : Turn) : turn.next.session.scope = turn.nextScope := by rw [next_eq]

theorem function_next (turn : Turn) : turn.next.session.function = turn.nextFunction := by
  rw [next_eq]

theorem pendingType_next (turn : Turn) : turn.next.session.pendingType = turn.nextType := by
  rw [next_eq]

theorem hasError_next (turn : Turn) :
    turn.next.session.hasError =
      (turn.replay.session.hasError || turn.diagnostic?.isSome) := by rw [next_eq]

theorem diagnostics_next (turn : Turn) :
    turn.next.session.diagnostics =
      turn.replay.session.diagnostics ++ turn.diagnostic?.toArray := by rw [next_eq]

theorem symbols_next (turn : Turn) :
    turn.next.session.symbols = turn.replay.session.symbols.sight turn.sighting? := by
  rw [next_eq]

theorem constants_next (turn : Turn) : turn.next.session.constants = turn.nextConstants := by
  rw [next_eq]

theorem tokens_next (turn : Turn) : turn.next.session.tokens = turn.nextTokens := by rw [next_eq]

theorem lastResolved_next (turn : Turn) : turn.next.lastResolved = turn.nextResolved := by
  rw [next_eq]

/-- A turn succeeds unless there is a reason to refuse it. -/
theorem answer_eq (turn : Turn) :
    (turn.replay.apply turn.event).1 =
      match turn.refusal? with
      | none => .ok ()
      | some violation => .error violation := by
  obtain ⟨⟨session, lastResolved⟩, event⟩ := turn
  cases event with
  | token tag line lexeme =>
      cases ht : TokenCategory.ofTag? tag with
      | none => simp [refusal?, Session.classify, ht, Except.map]
      | some category => simp [refusal?, Session.classify, ht, Except.map]
  | beginType tag =>
      cases ht : DeclaredType.ofTag? tag <;> simp [refusal?, Session.setTypeTag, ht, Except.map]
  | declare line name =>
      cases hp : session.pendingType with
      | none => simp [refusal?, Session.declare_of_unset hp, hp, Except.map]
      | some type =>
          cases hk : session.symbols.declaredType? (session.keyIn name session.scope) with
          | none => simp [refusal?, Session.declare_of_new hp hk, hp, Except.map]
          | some previous => simp [refusal?, Session.declare_of_known hp hk, hp, Except.map]
  | record line name =>
      cases hp : session.pendingType with
      | none => simp [refusal?, Session.recordDeclaration_of_unset hp, hp, Except.map]
      | some type => simp [refusal?, Session.recordDeclaration_of_pending hp, hp, Except.map]
  | exitScope =>
      by_cases hs : session.scope = 0 <;> simp [refusal?, Session.exitScope, hs, Except.map]
  | check actual expected line => cases actual <;> rfl
  | _ => rfl

/-- A turn that is refused leaves the replay as it was. -/
theorem next_of_refusal {turn : Turn} {violation : Violation}
    (h : turn.refusal? = some violation) : turn.next = turn.replay := by
  obtain ⟨⟨session, lastResolved⟩, event⟩ := turn
  cases event with
  | token tag line lexeme =>
      cases ht : TokenCategory.ofTag? tag with
      | none => simp [Session.classify, ht]
      | some category => simp [refusal?, ht] at h
  | beginType tag =>
      cases ht : DeclaredType.ofTag? tag with
      | none => simp [Session.setTypeTag, ht]
      | some type => simp [refusal?, ht] at h
  | declare line name =>
      cases hp : session.pendingType with
      | none => simp [Session.declare_of_unset hp]
      | some type => simp [refusal?, hp] at h
  | record line name =>
      cases hp : session.pendingType with
      | none => simp [Session.recordDeclaration_of_unset hp]
      | some type => simp [refusal?, hp] at h
  | exitScope =>
      by_cases hs : session.scope = 0
      · simp [Session.exitScope, hs]
      · simp [refusal?, hs] at h
  | _ => simp [refusal?] at h

end

/-- A diagnostic is made by the declaration of a key with a type, by the use of a name without
rows, by a check of different codes, or by a negative index. -/
theorem diagnostic?_cases {turn : Turn} {diagnostic : Diagnostic}
    (h : turn.diagnostic? = some diagnostic) :
    (∃ line name type previous, turn.event = .declare line name ∧ turn.pendingType = some type ∧
      turn.replay.session.symbols.declaredType? (turn.key name) = some previous ∧
      diagnostic = .report turn.replay.session.sourceName
        (.multipleDeclaration (previous == type)) line) ∨
    (∃ line name, turn.event = .use line name ∧ name ∉ builtinNames ∧
      turn.replay.session.symbols.oldestType? name = none ∧
      diagnostic = .report turn.replay.session.sourceName .undeclaredVariable line) ∨
    (∃ actual expected line, turn.event = .check actual expected line ∧
      turn.operand actual ≠ turn.wanted expected ∧
      diagnostic = .report turn.replay.session.sourceName .typeMismatch line) ∨
    ∃ value line, turn.event = .index value line ∧ value < 0 ∧
      diagnostic = .report turn.replay.session.sourceName .arrayIndex line := by
  unfold diagnostic? at h
  split at h
  · rename_i line name he
    split at h
    · rename_i type previous hp hd
      cases h
      exact .inl ⟨line, name, type, previous, he, hp, hd, rfl⟩
    · cases h
  · rename_i line name he
    split at h
    · cases h
    · rename_i hb
      split at h
      · rename_i ho
        cases h
        exact .inr (.inl ⟨line, name, he, hb, ho, rfl⟩)
      · cases h
  · rename_i actual expected line he
    split at h
    · cases h
    · rename_i hne
      cases h
      exact .inr (.inr (.inl ⟨actual, expected, line, he, hne, rfl⟩))
  · rename_i value line he
    split at h
    · rename_i hneg
      cases h
      exact .inr (.inr (.inr ⟨value, line, he, hneg, rfl⟩))
    · cases h
  · cases h

/-! ## Declarations and uses -/

/-- A declaration of a key with a type is complained about and not seen. -/
theorem declare_of_known {turn : Turn} {line : LineNumber} {name : String}
    {type previous : DeclaredType} (he : turn.event = .declare line name)
    (hp : turn.pendingType = some type)
    (hd : turn.replay.session.symbols.declaredType? (turn.key name) = some previous) :
    turn.diagnostic? = some (.report turn.replay.session.sourceName
      (.multipleDeclaration (previous == type)) line) ∧ turn.sighting? = none := by
  simp [diagnostic?, sighting?, he, hp, hd]

/-- A declaration of a key without a type is seen with the pending type. -/
theorem declare_of_new {turn : Turn} {line : LineNumber} {name : String} {type : DeclaredType}
    (he : turn.event = .declare line name) (hp : turn.pendingType = some type)
    (hd : turn.replay.session.symbols.declaredType? (turn.key name) = none) :
    turn.diagnostic? = none ∧ turn.sighting? = some { key := turn.key name, type, line } := by
  simp [diagnostic?, sighting?, he, hp, hd]

/-- A use of a builtin name is answered with zero and has no other effect. -/
theorem next_use_of_builtin {turn : Turn} {line : LineNumber} {name : String}
    (he : turn.event = .use line name) (hb : name ∈ builtinNames) :
    turn.next = { turn.replay with lastResolved := .unchecked } := by
  rw [next, he]
  simp only [Replay.apply, Replay.proceed, Session.use_of_builtin hb]

/-- A use of a name without rows is answered with zero and complained about. -/
theorem use_of_unknown {turn : Turn} {line : LineNumber} {name : String}
    (he : turn.event = .use line name) (hb : name ∉ builtinNames)
    (ho : turn.replay.session.symbols.oldestType? name = none) :
    turn.nextResolved = .unchecked ∧
      turn.diagnostic? =
        some (.report turn.replay.session.sourceName .undeclaredVariable line) ∧
      turn.sighting? = none := by
  simp [nextResolved, diagnostic?, sighting?, he, hb, ho]

/-- A use of a name with rows is answered with its oldest type, and seen with that type. -/
theorem use_of_known {turn : Turn} {line : LineNumber} {name : String} {type : DeclaredType}
    (he : turn.event = .use line name) (hb : name ∉ builtinNames)
    (ho : turn.replay.session.symbols.oldestType? name = some type) :
    turn.nextResolved = type.code ∧ turn.diagnostic? = none ∧
      turn.sighting? = some { key := turn.key name, type, line } := by
  simp [nextResolved, diagnostic?, sighting?, he, hb, ho]

end Turn

/-- The type that declarations give after an event, from the one before it. -/
def Event.nextType (pending : Option DeclaredType) : Event → Option DeclaredType
  | .beginType tag => (DeclaredType.ofTag? tag).or pending
  | .endType => none
  | _ => pending

/-- The pending type is decided by the events that set and end it. -/
theorem Replay.pendingType_after (replay : Replay) (events : List Event) :
    (replay.after events).session.pendingType =
      events.foldl Event.nextType replay.session.pendingType := by
  induction events generalizing replay with
  | nil => rfl
  | cons event events ih =>
      rw [after_cons, ih, List.foldl_cons]
      congr 1
      refine (Turn.mk replay event).pendingType_next.trans ?_
      cases event <;> rfl

/-- A run does not rename its source. -/
theorem Replay.sourceName_after (sourceName : String) (events : List Event) :
    ((start sourceName).after events).session.sourceName = sourceName :=
  after_induction (P := fun replay => replay.session.sourceName = sourceName)
    (fun turn h => turn.sourceName_next.trans h) rfl events

end SemanticPass
