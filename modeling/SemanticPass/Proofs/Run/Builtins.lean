import SemanticPass.Proofs.Run.FirstRecording
import SemanticPass.Proofs.Run.Resolution
import SemanticPass.Proofs.Run.Texts

/-!
# Builtin names

A use of a builtin name leaves the session as it was, so it makes no row and no diagnostic, even
where the name has rows. A declaration and a recording do not ask whether their name is builtin: it
gets its rows as every other name does.
-/

namespace SemanticPass

open Text

/-- A use of a builtin name is answered with zero, makes no diagnostic, and leaves the session as it
was. -/
theorem Turn.uses_builtin {turn : Turn} {name : String} (hb : name ∈ builtinNames)
    (hu : turn.event.uses name = true) :
    turn.next.lastResolved = .unchecked ∧ turn.produced = [] ∧
      turn.next.session = turn.replay.session := by
  cases he : turn.event with
  | use line found =>
      obtain rfl : found = name := by simpa [he, Event.uses] using hu
      have hnext := next_use_of_builtin he hb
      refine ⟨by rw [hnext], ?_, by rw [hnext]⟩
      rw [produced, hnext]
      simp
  | _ => simp [he, Event.uses] at hu

namespace Replay

/-- The names with rows are those that were declared or recorded. -/
theorem exists_named_row_iff (sourceName : String) (events : List Event) (name : String) :
    (∃ row ∈ ((start sourceName).after events).session.symbols.entries, row.key.name = name) ↔
      ∃ turn ∈ (start sourceName).turns events, turn.introduces name = true := by
  rw [← (coherent_after sourceName events).isSome_oldestType?_iff, oldestType?_after,
    ← List.find?_isSome, ← introduction?]
  cases hfirst : (start sourceName).introduction? events name with
  | none => rfl
  | some introduction =>
      obtain ⟨type, hp⟩ := pendingType_of_introduction? hfirst
      rw [Option.bind_some, hp]
      rfl

/-- What a replay of a text does with names: those with rows are the ones that the lines it applied
declare or record, builtin or not, and no use of a builtin name changes the session. -/
theorem run_builtins (sourceName trace : String) :
    ∃ lines events, IsLines lines trace.toList ∧
      events.map .ok <+: (significant 1 lines).map (fun line => Event.read line.1) ∧
      ((start sourceName).run trace).2 = (start sourceName).after events ∧
      (∀ name, (∃ row ∈ ((start sourceName).run trace).2.session.symbols.entries,
        row.key.name = name) ↔ ∃ event ∈ events, event.introduces name = true) ∧
      ∀ name ∈ builtinNames, ∀ turn ∈ (start sourceName).turns events,
        turn.event.uses name = true →
          turn.next.lastResolved = .unchecked ∧ turn.produced = [] ∧
            turn.next.session = turn.replay.session := by
  obtain ⟨lines, hlines⟩ := exists_isLines trace.toList
  obtain ⟨events, hread, hrun, hsucceeds⟩ := exists_run_eq_after hlines (start sourceName)
  refine ⟨lines, events, hlines, hread, hrun, fun name => ?_, fun name hb turn _ hu => ?_⟩
  · rw [hrun, exists_named_row_iff]
    constructor
    · rintro ⟨turn, hmem, hi⟩
      refine ⟨turn.event, ?_, (Bool.and_eq_true_iff.mp hi).1⟩
      rw [← map_event_turns (start sourceName) events]
      exact List.mem_map_of_mem hmem
    · rintro ⟨event, hmem, hi⟩
      rw [← map_event_turns (start sourceName) events] at hmem
      obtain ⟨turn, hturn, rfl⟩ := List.mem_map.mp hmem
      exact ⟨turn, hturn, Bool.and_eq_true_iff.mpr ⟨hi, hsucceeds turn hturn⟩⟩
  · exact Turn.uses_builtin hb hu

/-- A builtin name that is declared has a row. -/
theorem run_builtins_declared :
    "printf" ∈ builtinNames ∧
      ∃ row ∈ ((start "input.c").run "type i\ndeclare 1 printf\n").2.session.symbols.entries,
        row.key.name = "printf" := by
  let events : List Event := [.beginType 'i', .declare 1 "printf"]
  have hp : ((start "input.c").after [.beginType 'i']).session.pendingType = some .int :=
    pendingType_after _ _
  have hfirst : Turn.succeeds { replay := start "input.c", event := .beginType 'i' } = true := rfl
  have hsecond : Turn.introduces
      { replay := (start "input.c").after [.beginType 'i'], event := .declare 1 "printf" } "printf" =
        true :=
    (Turn.introduces_iff _ _).mpr ⟨by decide, by rw [Turn.pendingType, hp]; rfl⟩
  have hsucceeds : ∀ turn ∈ (start "input.c").turns events, turn.succeeds = true := by
    refine List.forall_mem_cons.mpr ⟨hfirst, List.forall_mem_cons.mpr ⟨?_, List.forall_mem_nil _⟩⟩
    exact (Bool.and_eq_true_iff.mp hsecond).2
  have hrun : (start "input.c").run "type i\ndeclare 1 printf\n" =
      (.ok 2, (start "input.c").after events) :=
    runLines_eq_ok_iff.mpr ⟨replays_iff_exists_events.mpr ⟨events, rfl, rfl, hsucceeds⟩, rfl⟩
  rw [hrun, exists_named_row_iff]
  exact ⟨by decide, _, .tail _ (.head _), hsecond⟩

end Replay

end SemanticPass
