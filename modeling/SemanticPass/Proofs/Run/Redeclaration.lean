import Mathlib.Data.List.Induction
import Mathlib.Tactic.ByContra
import SemanticPass.Proofs.Run.Recording

/-!
# Declarations of known keys

A name is declared again at a scope and a function if the symbol table has a row there. Earlier
declarations and recordings at the same scope and function put it there, and so do earlier uses
there that found a declaration in another place. A use without a declaration leaves no row, so
the name can still be declared.
-/

namespace SemanticPass

namespace Turn

/-- Whether a turn declares a key or records it, and is not refused. -/
def introducesAt (turn : Turn) (key : SymbolKey) : Bool :=
  turn.introduces key.name && turn.key key.name == key

/-- Whether a turn uses a key and is answered with the code of a type. -/
def refersAt (turn : Turn) (key : SymbolKey) : Bool :=
  turn.refers key.name && turn.key key.name == key

/-- A declaration of a key with a row is complained about and recorded nowhere. -/
theorem next_declare_of_known {turn : Turn} {line : LineNumber} {name : String}
    {type : DeclaredType} (hc : turn.replay.session.symbols.Coherent)
    (he : turn.event = .declare line name) (hp : turn.pendingType = some type)
    (hd : (turn.replay.session.symbols.declaredType? (turn.key name)).isSome = true) :
    ∃ row, turn.replay.session.symbols.get? (turn.key name) = some row ∧
      turn.next.session.diagnostics = turn.replay.session.diagnostics.push
        (.report turn.replay.session.sourceName
          (.multipleDeclaration (row.declaredType == type)) line) ∧
      turn.next.session.symbols = turn.replay.session.symbols := by
  obtain ⟨previous, hd⟩ := Option.isSome_iff_exists.mp hd
  obtain ⟨row, hrow, rfl⟩ :=
    Option.map_eq_some_iff.mp ((hc.map_declaredType_get? (turn.key name)).trans hd)
  obtain ⟨hdiagnostic, hsighting⟩ := declare_of_known he hp hd
  refine ⟨row, hrow, ?_, ?_⟩
  · rw [diagnostics_next, hdiagnostic]
    rfl
  · rw [symbols_next, hsighting]
    rfl

/-- A declaration of a key without a row makes one, with the pending type. -/
theorem next_declare_of_new {turn : Turn} {line : LineNumber} {name : String}
    {type : DeclaredType} (hc : turn.replay.session.symbols.Coherent)
    (he : turn.event = .declare line name) (hp : turn.pendingType = some type)
    (hd : turn.replay.session.symbols.declaredType? (turn.key name) = none) :
    turn.replay.session.symbols.get? (turn.key name) = none ∧
      turn.next.session.diagnostics = turn.replay.session.diagnostics ∧
      turn.replay.session.symbols.Gains { key := turn.key name, type, line }
        turn.next.session.symbols := by
  obtain ⟨hdiagnostic, hsighting⟩ := declare_of_new he hp hd
  refine ⟨?_, ?_, ?_⟩
  · exact Option.map_eq_none_iff.mp ((hc.map_declaredType_get? (turn.key name)).trans hd)
  · rw [diagnostics_next, hdiagnostic]
    exact Array.append_empty
  · rw [symbols_next, hsighting]
    exact hc.gains { key := turn.key name, type, line }

end Turn

namespace Replay

/-- A key has a type exactly when a turn of the run introduced it or referred to a declaration
at it. -/
theorem isSome_declaredType?_after (sourceName : String) (events : List Event)
    (key : SymbolKey) :
    (((start sourceName).after events).session.symbols.declaredType? key).isSome = true ↔
      ∃ turn ∈ (start sourceName).turns events,
        turn.introducesAt key = true ∨ turn.refersAt key = true := by
  induction events using List.reverseRecOn with
  | nil => simp [start, Session.start, SymbolTable.empty, SymbolTable.declaredType?]
  | append_singleton events event ih =>
      rw [after_concat, Turn.isSome_declaredType?_next, turns_concat]
      simp only [List.mem_append, List.mem_singleton, or_and_right, exists_or, exists_eq_left]
      refine or_congr ih ?_
      simp only [Turn.introducesAt, Turn.refersAt, Bool.and_eq_true, beq_iff_eq]
      constructor
      · rintro ⟨hkey, hcase⟩
        exact hcase.imp (⟨·, hkey⟩) (⟨·, hkey⟩)
      · rintro (⟨hi, hkey⟩ | ⟨hr, hkey⟩)
        · exact ⟨hkey, .inl hi⟩
        · exact ⟨hkey, .inr hr⟩

/-- What a declaration reports and records after any history. -/
theorem declare_after {sourceName : String} {events : List Event} {type : DeclaredType}
    (h : ((start sourceName).after events).session.pendingType = some type)
    (line : LineNumber) (name : String) :
    let turn : Turn := { replay := (start sourceName).after events, event := .declare line name }
    let before := turn.replay.session
    let after := turn.next.session
    let key : SymbolKey := { name, scope := before.scope, function := before.function }
    let known := ∃ earlier ∈ (start sourceName).turns events,
      earlier.introducesAt key = true ∨ earlier.refersAt key = true
    turn.succeeds = true ∧
    ((∃ sameType, after.diagnostics = before.diagnostics.push
      { sourceName, line, kind := .multipleDeclaration sameType }) ↔ known) ∧
    (known → ∃ row, before.symbols.get? key = some row ∧
      after.diagnostics = before.diagnostics.push
        { sourceName, line, kind := .multipleDeclaration (row.declaredType == type) } ∧
      after.symbols = before.symbols) ∧
    (¬ known → after.diagnostics = before.diagnostics ∧ before.symbols.get? key = none ∧
      after.symbols.get? key = some { key, declaredType := type, lines := [line] } ∧
      (∀ other, other ≠ key → after.symbols.get? other = before.symbols.get? other) ∧
      after.symbols.entries =
        before.symbols.entries ++ [{ key, declaredType := type, lines := [line] }]) := by
  intro turn before after key known
  have hp : turn.pendingType = some type := h
  have hcoherent : before.symbols.Coherent := coherent_after sourceName events
  have hsource : before.sourceName = sourceName := sourceName_after sourceName events
  have hknown : (before.symbols.declaredType? key).isSome = true ↔ known :=
    isSome_declaredType?_after sourceName events key
  have hcomplained : known → ∃ row, before.symbols.get? key = some row ∧
      after.diagnostics = before.diagnostics.push
        { sourceName, line, kind := .multipleDeclaration (row.declaredType == type) } ∧
      after.symbols = before.symbols := by
    intro hk
    rw [← hsource]
    exact Turn.next_declare_of_known hcoherent rfl hp (hknown.mpr hk)
  have hrecorded : ¬ known → before.symbols.get? key = none ∧
      after.diagnostics = before.diagnostics ∧
      before.symbols.Gains { key, type, line } after.symbols := by
    intro hk
    have hd : before.symbols.declaredType? key = none := by
      simpa using (not_congr hknown).mpr hk
    exact Turn.next_declare_of_new hcoherent rfl hp hd
  refine ⟨?_, ⟨?_, ?_⟩, hcomplained, ?_⟩
  · rw [Turn.succeeds_eq, Turn.refusal?, hp]
    rfl
  · rintro ⟨sameType, hpush⟩
    by_contra hk
    have hsize := congrArg Array.size ((hrecorded hk).2.1.symm.trans hpush)
    simp at hsize
  · intro hk
    obtain ⟨row, -, hpush, -⟩ := hcomplained hk
    exact ⟨_, hpush⟩
  · intro hk
    obtain ⟨hnone, hdiagnostics, hgains⟩ := hrecorded hk
    refine ⟨hdiagnostics, hnone, ?_, hgains.others, ?_⟩
    · rw [hgains.row, hnone]
      rfl
    · rw [hgains.entries, hnone]

/-- The first declaration of a name makes a row with the type that was read before it. -/
theorem declare_after_first_type :
    let turn : Turn :=
      { replay := (start "input.c").after [.beginType 'f'], event := .declare 1 "x" }
    turn.pendingType = some .float ∧
      turn.next.session.symbols.entries =
        [{ key := { name := "x", scope := 0, function := 0 }, declaredType := .float,
           lines := [1] }] := by
  have hp : ((start "input.c").after [.beginType 'f']).session.pendingType = some .float := rfl
  refine ⟨hp, ?_⟩
  obtain ⟨-, -, -, hnew⟩ := declare_after hp 1 "x"
  exact (hnew (by simp [turns, Turn.introducesAt, Turn.refersAt, Turn.introduces, Turn.refers,
    Event.introduces, Event.uses])).2.2.2.2

/-- A name that was only used at a scope and a function can be known there: the use found the
declaration in the scope around it. -/
theorem declare_after_outer_use :
    let events : List Event := [.beginType 'i', .declare 1 "x", .enterScope, .use 2 "x"]
    let turn : Turn := { replay := (start "input.c").after events, event := .declare 3 "x" }
    turn.pendingType = some .int ∧
    turn.next.session.diagnostics =
      turn.replay.session.diagnostics.push
        { sourceName := "input.c", line := 3, kind := .multipleDeclaration true } ∧
    ∀ earlier ∈ (start "input.c").turns events, earlier.introducesAt (turn.key "x") = false := by
  intro events turn
  let first : Turn := { replay := start "input.c", event := .beginType 'i' }
  let outer : Turn := { replay := first.next, event := .declare 1 "x" }
  let enter : Turn := { replay := outer.next, event := .enterScope }
  let use : Turn := { replay := enter.next, event := .use 2 "x" }
  have hturns : (start "input.c").turns events = [first, outer, enter, use] := rfl
  have hpending : outer.pendingType = some .int := rfl
  have hscope : enter.next.session.scope = 1 := by
    rw [enter.scope_next]
    show outer.next.session.scope + 1 = 1
    rw [outer.scope_next]
    rfl
  have hfunction : enter.next.session.function = 0 := by
    rw [enter.function_next]
    show outer.next.session.function = 0
    rw [outer.function_next]
    rfl
  have huse : use.key "x" = { name := "x", scope := 1, function := 0 } := by
    show SymbolKey.mk "x" enter.next.session.scope enter.next.session.function = _
    rw [hscope, hfunction]
  have hkey : turn.key "x" = { name := "x", scope := 1, function := 0 } := by
    show SymbolKey.mk "x" use.next.session.scope use.next.session.function = _
    rw [use.scope_next, use.function_next]
    exact huse
  have hfree : outer.replay.session.symbols.declaredType? (outer.key "x") = none := by
    show SymbolTable.empty.declaredType? _ = none
    simp [SymbolTable.empty, SymbolTable.declaredType?]
  have hsymbols : enter.next.session.symbols =
      (SymbolTable.empty.record { name := "x", scope := 0, function := 0 } .int 1).2 := by
    rw [enter.symbols_next]
    show outer.next.session.symbols = _
    rw [outer.symbols_next, (Turn.declare_of_new rfl hpending hfree).2]
    rfl
  have holdest : enter.next.session.symbols.oldestType? "x" = some .int := by
    rw [hsymbols, SymbolTable.coherent_empty.oldestType?_record]
    simp
  have hknown : turn.replay.session.symbols.declaredType? (turn.key "x") = some .int := by
    obtain ⟨-, -, hseen⟩ := @Turn.use_of_known use 2 "x" .int rfl (by decide) holdest
    show use.next.session.symbols.declaredType? _ = _
    rw [use.symbols_next, hseen]
    show (enter.next.session.symbols.record (use.key "x") .int 2).2.declaredType? _ = _
    rw [hsymbols, huse, hkey, SymbolTable.declaredType?_record, SymbolTable.declaredType?_record]
    simp [SymbolTable.empty, SymbolTable.declaredType?]
  have hp : turn.pendingType = some .int := by
    show use.next.session.pendingType = _
    rw [use.pendingType_next]
    show enter.next.session.pendingType = _
    rw [enter.pendingType_next]
    show outer.next.session.pendingType = _
    rw [outer.pendingType_next]
    rfl
  refine ⟨hp, ?_, ?_⟩
  · rw [turn.diagnostics_next, (Turn.declare_of_known rfl hp hknown).1]
    have hsource : turn.replay.session.sourceName = "input.c" := sourceName_after _ events
    rw [hsource]
    rfl
  · rw [hturns, hkey]
    simp only [List.mem_cons, List.not_mem_nil, or_false, forall_eq_or_imp, forall_eq]
    refine ⟨rfl, ?_, rfl, rfl⟩
    exact Bool.and_eq_false_iff.mpr (.inr rfl)

end Replay

end SemanticPass
