import Mathlib.Data.List.Induction
import SemanticPass.Proofs.Run.Recording

/-!
# Uses resolve to the first introduction

The answer to a use is decided by the history of the run alone: it is the code of the type that
was pending when its name was first declared or recorded, in whatever scope and function. Later
introductions do not change it, and uses do not introduce names.
-/

namespace SemanticPass

/-- All complaints but those about declarations are reported at the line before their own, and at
line zero for itself. -/
theorem DiagnosticKind.reportedLine_eq (kind : DiagnosticKind)
    (h : ∀ sameType, kind ≠ .multipleDeclaration sameType) (line : LineNumber) :
    kind.reportedLine line = .ofNat (line.toNat - 1) := by
  have hbefore : kind.reportedLine line = if line = 0 then 0 else line - 1 := by
    cases kind with
    | multipleDeclaration sameType => exact absurd rfl (h sameType)
    | _ => rfl
  rw [hbefore]
  by_cases hzero : line = 0
  · rw [if_pos hzero, hzero]
    rfl
  · have hpos : (1 : UInt64) ≤ line := by
      rw [UInt64.le_iff_toNat_le, UInt64.toNat_one, Nat.one_le_iff_ne_zero]
      exact fun hz => hzero (UInt64.toNat.inj hz)
    have hlt := line.toNat_lt
    apply UInt64.toNat.inj
    rw [if_neg hzero, UInt64.toNat_sub_of_le _ _ hpos, UInt64.toNat_one, UInt64.toNat_ofNat']
    omega

namespace Turn

/-- A use of a name without rows is complained about and recorded nowhere. -/
theorem next_use_of_unknown {turn : Turn} {line : LineNumber} {name : String}
    (he : turn.event = .use line name) (hb : name ∉ builtinNames)
    (ho : turn.replay.session.symbols.oldestType? name = none) :
    turn.next.lastResolved = .unchecked ∧
      turn.next.session.diagnostics = turn.replay.session.diagnostics.push
        (.report turn.replay.session.sourceName .undeclaredVariable line) ∧
      turn.next.session.symbols = turn.replay.session.symbols := by
  obtain ⟨hresolved, hdiagnostic, hsighting⟩ := use_of_unknown he hb ho
  refine ⟨turn.lastResolved_next.trans hresolved, ?_, ?_⟩
  · rw [diagnostics_next, hdiagnostic]
    rfl
  · rw [symbols_next, hsighting]
    rfl

/-- A use of a name with rows is answered with the oldest type, and its line is added where the
turn is. -/
theorem next_use_of_known {turn : Turn} {line : LineNumber} {name : String} {type : DeclaredType}
    (hc : turn.replay.session.symbols.Coherent) (he : turn.event = .use line name)
    (hb : name ∉ builtinNames)
    (ho : turn.replay.session.symbols.oldestType? name = some type) :
    turn.next.lastResolved = type.code ∧
      turn.next.session.diagnostics = turn.replay.session.diagnostics ∧
      turn.replay.session.symbols.Gains { key := turn.key name, type, line }
        turn.next.session.symbols := by
  obtain ⟨hresolved, hdiagnostic, hsighting⟩ := use_of_known he hb ho
  refine ⟨turn.lastResolved_next.trans hresolved, ?_, ?_⟩
  · rw [diagnostics_next, hdiagnostic]
    exact Array.append_empty
  · rw [symbols_next, hsighting]
    exact hc.gains { key := turn.key name, type, line }

end Turn

namespace Replay

/-- The first turn of a run that declares a name or records it. -/
def introduction? (replay : Replay) (events : List Event) (name : String) : Option Turn :=
  (replay.turns events).find? fun turn => turn.introduces name

/-- A first introduction has a pending type. -/
theorem pendingType_of_introduction? {replay : Replay} {events : List Event} {name : String}
    {turn : Turn} (h : replay.introduction? events name = some turn) :
    ∃ type, turn.pendingType = some type := by
  unfold introduction? at h
  have hi := List.find?_some h
  exact Turn.pendingType_of_introduces hi

theorem introduction?_append (replay : Replay) (events more : List Event) (name : String) :
    replay.introduction? (events ++ more) name =
      (replay.introduction? events name).or ((replay.after events).introduction? more name) := by
  rw [introduction?, turns_append, List.find?_append]
  rfl

/-- The oldest type of a name is the type that was pending at its first introduction. -/
theorem oldestType?_after (sourceName : String) (events : List Event) (name : String) :
    ((start sourceName).after events).session.symbols.oldestType? name =
      ((start sourceName).introduction? events name).bind Turn.pendingType := by
  induction events using List.reverseRecOn with
  | nil => exact SymbolTable.oldestType?_empty name
  | append_singleton events event ih =>
      rw [after_concat, Turn.oldestType?_next (coherent_after sourceName events), ih,
        introduction?_append]
      cases hfirst : (start sourceName).introduction? events name with
      | none =>
          rw [introduction?, turns, turns_nil, List.find?_singleton]
          split <;> rfl
      | some introduction =>
          obtain ⟨type, hp⟩ := pendingType_of_introduction? hfirst
          simp [hp]

/-- An oldest type stays for the rest of a run. -/
theorem oldestType?_after_append {sourceName : String} {events : List Event} {name : String}
    {type : DeclaredType}
    (h : ((start sourceName).after events).session.symbols.oldestType? name = some type)
    (more : List Event) :
    ((start sourceName).after (events ++ more)).session.symbols.oldestType? name =
      some type := by
  rw [oldestType?_after] at h ⊢
  obtain ⟨introduction, hfirst, hp⟩ := Option.bind_eq_some_iff.mp h
  rw [introduction?_append, hfirst]
  exact hp

/-- What a use answers and changes after any history. -/
theorem use_after (sourceName : String) (events : List Event) (line : LineNumber)
    (name : String) :
    let turn : Turn := { replay := (start sourceName).after events, event := .use line name }
    let introduction? := (start sourceName).introduction? events name
    let before := turn.replay.session
    let after := turn.next.session
    turn.succeeds = true ∧
    (name ∈ builtinNames → turn.next.lastResolved = 0 ∧ after = before) ∧
    (name ∉ builtinNames → introduction? = none →
      turn.next.lastResolved = 0 ∧
      after.diagnostics = before.diagnostics.push
        { sourceName, line := .ofNat (line.toNat - 1), kind := .undeclaredVariable } ∧
      after.symbols = before.symbols ∧ after.constants = before.constants ∧
      after.tokens = before.tokens) ∧
    (name ∉ builtinNames → ∀ introduction, introduction? = some introduction →
      ∃ type, introduction.pendingType = some type ∧ turn.next.lastResolved = type.code ∧
        after.diagnostics = before.diagnostics ∧
        before.symbols.Gains
          { key := { name, scope := before.scope, function := before.function }, type, line }
          after.symbols ∧
        after.constants = before.constants ∧ after.tokens = before.tokens) ∧
    ((∃ row ∈ before.symbols.entries, row.key.name = name) ↔ introduction?.isSome) ∧
    (∀ later line', turn.next.lastResolved ≠ 0 →
      (Turn.mk (turn.next.after later) (.use line' name)).next.lastResolved =
        turn.next.lastResolved) := by
  intro turn introduction? before after
  have hevent : turn.event = .use line name := rfl
  have hcoherent : before.symbols.Coherent := coherent_after sourceName events
  have hsource : before.sourceName = sourceName := sourceName_after sourceName events
  have hoverall : before.symbols.oldestType? name = introduction?.bind Turn.pendingType :=
    oldestType?_after sourceName events name
  refine ⟨?_, ?_, ?_, ?_, ?_, ?_⟩
  · rw [Turn.succeeds_eq]
    rfl
  · intro hb
    have hnext := Turn.next_use_of_builtin hevent hb
    refine ⟨by rw [hnext]; rfl, ?_⟩
    show turn.next.session = before
    rw [hnext]
  · intro hb hfirst
    have ho : before.symbols.oldestType? name = none := by rw [hoverall, hfirst]; rfl
    obtain ⟨hresolved, hdiagnostics, hsymbols⟩ := Turn.next_use_of_unknown hevent hb ho
    refine ⟨hresolved, ?_, hsymbols, turn.constants_next, turn.tokens_next⟩
    rw [← DiagnosticKind.reportedLine_eq .undeclaredVariable nofun, ← hsource]
    exact hdiagnostics
  · intro hb introduction hfirst
    obtain ⟨type, hp⟩ := pendingType_of_introduction? hfirst
    have ho : before.symbols.oldestType? name = some type := by rw [hoverall, hfirst]; exact hp
    obtain ⟨hresolved, hdiagnostics, hgains⟩ := Turn.next_use_of_known hcoherent hevent hb ho
    exact ⟨type, hp, hresolved, hdiagnostics, hgains, turn.constants_next, turn.tokens_next⟩
  · rw [← hcoherent.isSome_oldestType?_iff, hoverall]
    cases hfirst : introduction? with
    | none => rfl
    | some introduction =>
        obtain ⟨type, hp⟩ := pendingType_of_introduction? hfirst
        simp [hp]
  · intro later line' hne
    have hrefers : turn.refers name = true := by
      rw [Turn.refers, Bool.and_eq_true]
      exact ⟨by simp [hevent, Event.uses], bne_iff_ne.mpr hne⟩
    obtain ⟨-, hb, ho⟩ := (turn.refers_iff name).mp hrefers
    obtain ⟨type, ho⟩ := Option.isSome_iff_exists.mp ho
    obtain ⟨hresolved, -⟩ := Turn.next_use_of_known hcoherent hevent hb ho
    let again : Turn := { replay := turn.next.after later, event := .use line' name }
    have hnext : again.replay = (start sourceName).after (events ++ [.use line name] ++ later) := by
      rw [after_append, after_concat]
    have hcoherent' : again.replay.session.symbols.Coherent := by
      rw [hnext]
      exact coherent_after sourceName _
    have hstays : again.replay.session.symbols.oldestType? name = some type := by
      rw [hnext, List.append_assoc]
      exact oldestType?_after_append ho _
    obtain ⟨hsame, -⟩ := Turn.next_use_of_known hcoherent' (rfl : again.event = _) hb hstays
    exact hsame.trans hresolved.symm

end Replay

end SemanticPass
